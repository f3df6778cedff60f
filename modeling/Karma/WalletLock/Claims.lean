import Karma.Capacity.Code
import Karma.Evm.Run

/-! # Claims of on-chain locks

`claim_lock_bill` and `claim_unlock` of `services/chain/wallet_lock.py`. -/

namespace Karma.WalletLock

open Karma.Evm Karma.Capacity Function

/-- What the receipts say; an error is one of `fetch_receipt` or of the decoders. -/
structure Chain (B X W : Type) where
  /-- `decode_bill_minted`: the bill and its owner. -/
  minted : X → Except String (B × W)
  burned : X → Except String (B × W)
  /-- `wei_to_usdc` of the amount of a bill. -/
  amount : B → ℚ

inductive LockState
  | locked
  | released
  deriving DecidableEq

/-- A row of `ChainLockModel`. -/
structure Lock (I X : Type) where
  identity : I
  lockTx : X
  state : LockState
  unlockTx : Option X

inductive Kind
  | lock
  | unlock
  deriving DecidableEq

inductive Phase
  | checked
  | inserted
  | judged (seen : Balances)
  | posted (version : Balances)

structure Session (B I X : Type) where
  kind : Kind
  identity : I
  bill : B
  tx : X
  phase : Phase

/-- The committed tables, what uncommitted transactions hold, and the totals that were committed to
capacity rows for each bill. -/
structure State (T B I X : Type) where
  locks : B → Option (Lock I X)
  /-- The unique index on `lock_tx_hash`. -/
  byTx : X → Option B
  cap : I → Option Balances
  inserting : B → Option T
  insertingTx : X → Option T
  holder : I → Option T
  session : T → Option (Session B I X)
  credited : B → ℚ
  debited : B → ℚ

inductive Act (T B I X W : Type)
  | claimLock (t : T) (i : I) (x : X) (wallets : List W)
  | insert (t : T)
  | credit (t : T)
  | claimUnlock (t : T) (i : I) (b : B) (x : X) (wallets : List W)
  /-- `assert_can_release_locked_funds` on the capacity row. -/
  | judge (t : T)
  | debit (t : T)
  | commit (t : T)
  | rollback (t : T)

variable {T B I X W : Type} [DecidableEq T] [DecidableEq B] [DecidableEq I] [DecidableEq X]
  [DecidableEq W] (chain : Chain B X W)

def assertOwnerAllowed (owner : W) (wallets : List W) : Except String Unit :=
  if wallets = [] then
    .error ("cannot verify wallet ownership for this identity — connect the wallet in " ++
      "the Console (SIWE) and retry")
  else if owner ∈ wallets then .ok ()
  else .error "this lock belongs to a wallet that is not signed in for this identity"

def State.checkLock (s : State T B I X) (x : X) (wallets : List W) : Except String (Option B) :=
  if (s.byTx x).isSome then .ok none
  else do
    let (b, owner) ← chain.minted x
    assertOwnerAllowed owner wallets
    if chain.amount b ≤ 0 then .error "bill amount is zero — nothing to credit"
    else if (s.locks b).isSome then .ok none
    else .ok (some b)

def State.checkUnlock (s : State T B I X) (i : I) (b : B) (x : X) (wallets : List W) :
    Except String Unit :=
  match s.locks b with
  | none => .error "no on-chain lock is recorded for this bill on this identity"
  | some r =>
    if r.identity ≠ i then .error "no on-chain lock is recorded for this bill on this identity"
    else if r.state ≠ .locked then .error "this bill is already released"
    else do
      let (b', owner) ← chain.burned x
      assertOwnerAllowed owner wallets
      if b' = b then .ok () else .error "this transaction burned a different bill"

def State.balances (s : State T B I X) (i : I) : Balances := (s.cap i).getD 0

def State.set (s : State T B I X) (t : T) (j : Option (Session B I X)) : State T B I X :=
  { s with session := update s.session t j }

/-- The end of a transaction: its keys and its row locks are gone. -/
def State.close (s : State T B I X) (t : T) : State T B I X :=
  { s.set t none with
    inserting := fun b => if s.inserting b = some t then none else s.inserting b
    insertingTx := fun x => if s.insertingTx x = some t then none else s.insertingTx x
    holder := fun i => if s.holder i = some t then none else s.holder i }

/-- The update of the capacity row of `j`; `LedgerConflict` is a rollback. -/
def State.post (s : State T B I X) (t : T) (j : Session B I X) (st : Statement) :
    Option (State T B I X) :=
  if (s.holder j.identity).isSome then none
  else match (st.exec (some (s.balances j.identity))).join with
    | none => some (s.close t)
    | some version => some { s.set t (some { j with phase := .posted version }) with
        holder := update s.holder j.identity (some t) }

def State.commit (s : State T B I X) (t : T) (j : Session B I X) (version : Balances) :
    State T B I X :=
  { s.close t with
    locks := update s.locks j.bill <| match j.kind with
      | .lock => some ⟨j.identity, j.tx, .locked, none⟩
      | .unlock => (s.locks j.bill).map fun r =>
        { r with state := .released, unlockTx := some j.tx }
    byTx := match j.kind with
      | .lock => update s.byTx j.tx (some j.bill)
      | .unlock => s.byTx
    cap := update s.cap j.identity (some version)
    credited := fun b =>
      s.credited b + if j.kind = .lock ∧ b = j.bill then chain.amount b else 0
    debited := fun b =>
      s.debited b + if j.kind = .unlock ∧ b = j.bill then chain.amount b else 0 }

/-- **A statement of a request**. -/
def step (s : State T B I X) : Act T B I X W → Option (State T B I X)
  | .claimLock t i x wallets =>
    if (s.session t).isSome then none
    else match s.checkLock chain x wallets with
      | .ok (some b) => some (s.set t (some ⟨.lock, i, b, x, .checked⟩))
      | _ => some s
  | .insert t =>
    match s.session t with
    | some ⟨.lock, i, b, x, .checked⟩ =>
      -- the unique keys: "this bill or transaction was already credited"
      if (s.locks b).isSome ∨ (s.byTx x).isSome then some (s.close t)
      else if (s.inserting b).isSome ∨ (s.insertingTx x).isSome then none
      else some { s.set t (some ⟨.lock, i, b, x, .inserted⟩) with
        inserting := update s.inserting b (some t)
        insertingTx := update s.insertingTx x (some t) }
    | _ => none
  | .credit t =>
    match s.session t with
    | some ⟨.lock, i, b, x, .inserted⟩ => s.post t ⟨.lock, i, b, x, .inserted⟩
        (Capacity.credit (chain.amount b) "capacity row missing; on-chain lock was not credited")
    | _ => none
  | .claimUnlock t i b x wallets =>
    if (s.session t).isSome then none
    else match s.checkUnlock chain i b x wallets with
      | .ok () => some (s.set t (some ⟨.unlock, i, b, x, .checked⟩))
      | .error _ => some s
  | .judge t =>
    match s.session t with
    | some ⟨.unlock, i, b, x, .checked⟩ =>
      match assertCanReleaseLockedFunds (s.balances i) (chain.amount b) with
      | .error _ => some (s.close t)
      | .ok () => some (s.set t (some ⟨.unlock, i, b, x, .judged (s.balances i)⟩))
    | _ => none
  | .debit t =>
    match s.session t with
    | some ⟨.unlock, i, b, x, .judged seen⟩ => s.post t ⟨.unlock, i, b, x, .judged seen⟩
        (Capacity.debit (chain.amount b) EPSILON seen
          "unlock rejected: insufficient balance or concurrent change")
    | _ => none
  | .commit t =>
    match s.session t with
    | some ⟨kind, i, b, x, .posted version⟩ =>
      some (s.commit chain t ⟨kind, i, b, x, .posted version⟩ version)
    | _ => none
  | .rollback t => (s.session t).map fun _ => s.close t

/-- Nothing is claimed yet; the capacity rows may hold anything. -/
structure Init (s : State T B I X) : Prop where
  locks : ∀ b, s.locks b = none
  session : ∀ t, s.session t = none
  credited : ∀ b, s.credited b = 0
  debited : ∀ b, s.debited b = 0

abbrev History (T B I X W : Type) := List (Entry (State T B I X) (Act T B I X W))

abbrev Reach (h : History T B I X W) (s : State T B I X) : Prop := Run Init (step chain) h s

/-! ## What a statement does -/

variable {chain} {s s' : State T B I X} {t : T} {j : Session B I X}

structure Fits (chain : Chain B X W) (s : State T B I X) (t : T) (j : Session B I X) : Prop where
  pos : j.kind = .lock → 0 < chain.amount j.bill
  key : j.kind = .lock → j.phase ≠ .checked → s.locks j.bill = none ∧ s.inserting j.bill = some t
  row : j.kind = .unlock → (s.locks j.bill).isSome

/-- **Before its commit** a request changes no committed row and no total. -/
structure Private (chain : Chain B X W) (s s' : State T B I X) : Prop where
  locks : s'.locks = s.locks
  credited : s'.credited = s.credited
  debited : s'.debited = s.debited
  fits : (∀ t j, s.session t = some j → Fits chain s t j) →
    ∀ t j, s'.session t = some j → Fits chain s' t j

omit [DecidableEq B] [DecidableEq I] [DecidableEq X] [DecidableEq W] in
theorem Private.of_update {y : Option (Session B I X)} (hlocks : s'.locks = s.locks)
    (hcredited : s'.credited = s.credited) (hdebited : s'.debited = s.debited)
    (hsession : s'.session = update s.session t y)
    (hkeys : ∀ u b, u ≠ t → s.inserting b = some u → s'.inserting b = some u)
    (hy : ∀ j ∈ y, (∀ j', s.session t = some j' → Fits chain s t j') → Fits chain s' t j) :
    Private chain s s' := by
  refine ⟨hlocks, hcredited, hdebited, fun hfits u j hj => ?_⟩
  rw [hsession] at hj
  rcases eq_or_ne u t with rfl | hne
  · rw [update_self] at hj
    exact hy j hj (hfits u)
  · rw [update_of_ne hne] at hj
    obtain ⟨hpos, hkey, hrow⟩ := hfits u j hj
    refine ⟨hpos, fun hk hp => ?_, fun hk => hlocks ▸ hrow hk⟩
    exact ⟨hlocks ▸ (hkey hk hp).1, hkeys u _ hne (hkey hk hp).2⟩

omit [DecidableEq B] [DecidableEq I] [DecidableEq X] [DecidableEq W] in
theorem Private.close (s : State T B I X) (t : T) : Private chain s (s.close t) := by
  refine .of_update (t := t) (y := none) rfl rfl rfl rfl (fun u b hne hb => ?_)
    fun _ h => by cases h
  have hother : s.inserting b ≠ some t := fun h => hne (Option.some.inj (hb.symm.trans h))
  exact (if_neg hother).trans hb

omit [DecidableEq B] [DecidableEq X] [DecidableEq W] in
theorem Private.post {st : Statement} (hj : s.session t = some j) (hphase : j.phase ≠ .checked)
    (h : s.post t j st = some s') : Private chain s s' := by
  unfold State.post at h
  split_ifs at h
  split at h <;> cases h
  · exact .close s t
  · refine .of_update (t := t) rfl rfl rfl rfl (fun _ _ _ hb => hb) fun j' hj' hfits => ?_
    cases hj'
    obtain ⟨hpos, hkey, hrow⟩ := hfits j hj
    exact ⟨hpos, fun hk _ => hkey hk hphase, hrow⟩

omit [DecidableEq T] [DecidableEq B] [DecidableEq I] [DecidableEq X] in
theorem pos_of_checkLock {x : X} {wallets : List W} {b : B}
    (h : s.checkLock chain x wallets = .ok (some b)) : 0 < chain.amount b := by
  unfold State.checkLock at h
  split_ifs at h
  · cases h
  · cases hminted : chain.minted x with
    | error e => simp [hminted, bind, Except.bind] at h
    | ok p =>
      cases howner : assertOwnerAllowed p.2 wallets with
      | error e => simp [hminted, howner, bind, Except.bind] at h
      | ok _ =>
        simp only [hminted, howner, bind, Except.bind] at h
        split_ifs at h with hpos hrow
        · cases h
        · obtain rfl := Option.some.inj (Except.ok.inj h)
          exact not_le.mp hpos

omit [DecidableEq T] [DecidableEq X] in
theorem isSome_of_checkUnlock {i : I} {b : B} {x : X} {wallets : List W}
    (h : s.checkUnlock chain i b x wallets = .ok ()) : (s.locks b).isSome := by
  unfold State.checkUnlock at h
  cases hrow : s.locks b with
  | none => simp [hrow] at h
  | some r => rfl

theorem step_cases {a : Act T B I X W} (hs : step chain s a = some s') :
    (∀ t, a ≠ .commit t) ∧ Private chain s s' ∨
      ∃ t j version, a = .commit t ∧ s.session t = some j ∧ j.phase = .posted version ∧
        s' = s.commit chain t j version := by
  cases a with
  | claimLock t i x wallets =>
    refine .inl ⟨fun _ h => (by cases h), ?_⟩
    simp only [step] at hs
    split_ifs at hs
    split at hs <;> cases hs
    · rename_i b hcheck
      refine .of_update (t := t) rfl rfl rfl rfl (fun _ _ _ hb => hb) fun j hj _ => ?_
      cases hj
      exact ⟨fun _ => pos_of_checkLock hcheck, fun _ h => absurd rfl h, fun h => by cases h⟩
    · exact ⟨rfl, rfl, rfl, fun hfits => hfits⟩
  | insert t =>
    refine .inl ⟨fun _ h => (by cases h), ?_⟩
    simp only [step] at hs
    split at hs
    · rename_i i b x hsession
      split_ifs at hs with hunique hwait <;> cases hs
      · exact .close s t
      · obtain ⟨hnone, -⟩ := not_or.mp hunique
        obtain ⟨hfree, -⟩ := not_or.mp hwait
        refine .of_update (t := t) rfl rfl rfl rfl (fun u b' hne hb => ?_) fun j hj hfits => ?_
        · -- nobody else holds the key that is taken
          have hkey : b' ≠ b := fun h => by simp [h ▸ hb] at hfree
          exact (update_of_ne hkey ..).trans hb
        · cases hj
          refine ⟨(hfits _ hsession).pos, fun _ _ => ⟨?_, update_self ..⟩, fun h => (by cases h)⟩
          exact Option.not_isSome_iff_eq_none.mp hnone
    · cases hs
  | credit t | debit t =>
    refine .inl ⟨fun _ h => (by cases h), ?_⟩
    simp only [step] at hs
    split at hs
    · rename_i hsession
      exact .post hsession (fun h => by cases h) hs
    · cases hs
  | claimUnlock t i b x wallets =>
    refine .inl ⟨fun _ h => (by cases h), ?_⟩
    simp only [step] at hs
    split_ifs at hs
    split at hs <;> cases hs
    · rename_i hcheck
      refine .of_update (t := t) rfl rfl rfl rfl (fun _ _ _ hb => hb) fun j hj _ => ?_
      cases hj
      exact ⟨fun h => (by cases h), fun h => (by cases h), fun _ => isSome_of_checkUnlock hcheck⟩
    · exact ⟨rfl, rfl, rfl, fun hfits => hfits⟩
  | judge t =>
    refine .inl ⟨fun _ h => (by cases h), ?_⟩
    simp only [step] at hs
    split at hs
    · rename_i hsession
      split at hs <;> cases hs
      · exact .close s t
      · refine .of_update (t := t) rfl rfl rfl rfl (fun _ _ _ hb => hb) fun j hj hfits => ?_
        cases hj
        exact ⟨fun h => (by cases h), fun h => (by cases h), (hfits _ hsession).row⟩
    · cases hs
  | commit t =>
    simp only [step] at hs
    split at hs
    · rename_i version hsession
      cases hs
      exact .inr ⟨t, _, version, rfl, hsession, rfl, rfl⟩
    · cases hs
  | rollback t =>
    refine .inl ⟨fun _ h => (by cases h), ?_⟩
    obtain ⟨j, -, rfl⟩ := Option.map_eq_some_iff.mp hs
    exact .close s t

/-! ## Credited once, debited once -/

structure Sound (chain : Chain B X W) (s : State T B I X) : Prop where
  fits : ∀ t j, s.session t = some j → Fits chain s t j
  fresh : ∀ b, s.locks b = none → s.credited b = 0 ∧ s.debited b = 0
  recorded : ∀ b, (s.locks b).isSome → s.credited b = chain.amount b ∧ 0 < chain.amount b

def Debited (chain : Chain B X W) (s : State T B I X) : Prop :=
  ∀ b r, s.locks b = some r → s.debited b = if r.state = .released then chain.amount b else 0

def Once (chain : Chain B X W) (s : State T B I X) : Prop :=
  ∀ b, s.credited b = 0 ∧ s.debited b = 0 ∨
    s.credited b = chain.amount b ∧ (s.debited b = 0 ∨ s.debited b = chain.amount b)

def FindsLocked (e : Entry (State T B I X) (Act T B I X W)) : Prop :=
  ∀ t j, e.act = .commit t → e.pre.session t = some j → j.kind = .unlock →
    ∀ r, e.pre.locks j.bill = some r → r.state = .locked

omit [DecidableEq W] in
theorem isSome_commit {version : Balances} (hs : Sound chain s) (hj : s.session t = some j)
    (b : B) : ((s.commit chain t j version).locks b).isSome ↔ b = j.bill ∨ (s.locks b).isSome := by
  rcases eq_or_ne b j.bill with rfl | hother
  · refine iff_of_true ?_ (.inl rfl)
    show (update s.locks j.bill _ j.bill).isSome
    rw [update_self]
    cases hkind : j.kind with
    | lock => rfl
    | unlock => exact Option.isSome_map.trans ((hs.fits t j hj).row hkind)
  · have hsame : (s.commit chain t j version).locks b = s.locks b := update_of_ne hother ..
    rw [hsame]
    exact (or_iff_right hother).symm

omit [DecidableEq W] in
theorem Sound.commit {version : Balances} (hs : Sound chain s) (hj : s.session t = some j)
    (hphase : j.phase = .posted version) : Sound chain (s.commit chain t j version) := by
  obtain ⟨hpos, hkey, hrow⟩ := hs.fits t j hj
  have hposted : j.phase ≠ .checked := by rw [hphase]; exact fun h => by cases h
  have hsome : ∀ b, ((s.commit chain t j version).locks b).isSome ↔
      b = j.bill ∨ (s.locks b).isSome := isSome_commit hs hj
  refine ⟨fun u j' hj' => ?_, fun b hb => ?_, fun b hb => ?_⟩
  · have hne : u ≠ t := by
      rintro rfl
      simp [State.commit, State.close, State.set] at hj'
    obtain ⟨hpos', hkey', hrow'⟩ := hs.fits u j'
      (by simpa [State.commit, State.close, State.set, hne] using hj')
    refine ⟨hpos', fun hk hp => ?_, fun hk => (hsome _).mpr (.inr (hrow' hk))⟩
    obtain ⟨hnone', hinserting'⟩ := hkey' hk hp
    refine ⟨Option.not_isSome_iff_eq_none.mp fun h => ?_,
      (if_neg fun h => hne (Option.some.inj (hinserting'.symm.trans h))).trans hinserting'⟩
    rcases (hsome _).mp h with hbill | hold
    · -- the key of the bill is that of `t`, or the bill has a row
      rw [hbill] at hnone' hinserting'
      cases hkind : j.kind with
      | lock =>
        exact hne (Option.some.inj (hinserting'.symm.trans (hkey hkind hposted).2))
      | unlock => simpa [hnone'] using hrow hkind
    · simp [hnone'] at hold
  · have hnot : ¬ (b = j.bill ∨ (s.locks b).isSome) := fun h => by
      simpa [hb] using (hsome b).mpr h
    obtain ⟨hother, hold⟩ := not_or.mp hnot
    simpa [State.commit, hother] using hs.fresh b (Option.not_isSome_iff_eq_none.mp hold)
  · rcases eq_or_ne b j.bill with rfl | hother
    · cases hkind : j.kind with
      | lock =>
        obtain ⟨hcredited, -⟩ := hs.fresh _ (hkey hkind hposted).1
        simpa [State.commit, hkind, hcredited] using hpos hkind
      | unlock => simpa [State.commit, hkind] using hs.recorded _ (hrow hkind)
    · simpa [State.commit, hother] using hs.recorded b (((hsome b).mp hb).resolve_left hother)

theorem Reach.sound {h : History T B I X W} (hr : Reach chain h s) : Sound chain s := by
  refine hr.safe (fun s h0 => ?_) fun s a s' hs hstep => ?_
  · refine ⟨fun t j hj => ?_, fun b _ => ⟨h0.credited b, h0.debited b⟩, fun b hb => ?_⟩
    · simp [h0.session t] at hj
    · simp [h0.locks b] at hb
  · obtain ⟨-, hp⟩ | ⟨t, j, version, -, hj, hphase, rfl⟩ := step_cases hstep
    · refine ⟨hp.fits hs.fits, ?_, ?_⟩
      · rw [hp.locks, hp.credited, hp.debited]
        exact hs.fresh
      · rw [hp.locks, hp.credited]
        exact hs.recorded
    · exact hs.commit hj hphase

omit [DecidableEq W] in
theorem Debited.commit {version : Balances} (hs : Sound chain s) (hd : Debited chain s)
    (hj : s.session t = some j) (hphase : j.phase = .posted version)
    (hlocked : j.kind = .unlock → ∀ r, s.locks j.bill = some r → r.state = .locked) :
    Debited chain (s.commit chain t j version) := by
  obtain ⟨-, hkey, -⟩ := hs.fits t j hj
  have hposted : j.phase ≠ .checked := by rw [hphase]; exact fun h => by cases h
  intro b r hr
  rcases eq_or_ne b j.bill with rfl | hother
  · replace hr := (update_self ..).symm.trans hr
    cases hkind : j.kind with
    | lock =>
      rw [hkind] at hr
      cases hr
      simpa [State.commit, hkind] using (hs.fresh _ (hkey hkind hposted).1).2
    | unlock =>
      rw [hkind] at hr
      obtain ⟨r, hrow, rfl⟩ := Option.map_eq_some_iff.mp hr
      simp [State.commit, hkind, hd _ r hrow, hlocked hkind r hrow]
  · replace hr := (update_of_ne hother ..).symm.trans hr
    simpa [State.commit, hother] using hd b r hr

omit [DecidableEq T] [DecidableEq B] [DecidableEq I] [DecidableEq X] [DecidableEq W] in
theorem Sound.once (hs : Sound chain s) (hd : Debited chain s) : Once chain s := by
  intro b
  cases hrow : s.locks b with
  | none => exact .inl (hs.fresh b hrow)
  | some r =>
    refine .inr ⟨(hs.recorded b (by simp [hrow])).1, ?_⟩
    rw [hd b r hrow]
    split_ifs
    · exact .inr rfl
    · exact .inl rfl

/-- **Claims of locks and unlocks.** -/
theorem claims_once_iff {h : History T B I X W} (hr : Reach chain h s) :
    (Throughout (fun _ s => Once chain s) h s ↔ ∀ e ∈ h, FindsLocked e) ∧
      ∀ b, s.credited b = 0 ∨ s.credited b = chain.amount b := by
  refine ⟨?_, fun b => ?_⟩
  · refine (hr.throughout_iff_inv (J := fun _ s => Sound chain s ∧ Debited chain s)
      (C := fun _ e => FindsLocked e) (H := fun _ => True) (fun _ _ _ => trivial) (fun s h0 => ?_)
      ?_ (fun _ _ hJ => hJ.1.once hJ.2) ?_ trivial).trans each_iff
    · have h0' : Reach chain [] s := .start h0
      refine ⟨h0'.sound, fun b r hrow => ?_⟩
      simp [h0.locks b] at hrow
    · rintro h s a s' hr - ⟨hs, hd⟩ hstep hfinds
      refine ⟨Reach.sound (hr.next hstep), ?_⟩
      obtain ⟨-, hp⟩ | ⟨t, j, version, rfl, hj, hphase, rfl⟩ := step_cases hstep
      · unfold Debited
        rw [hp.locks, hp.debited]
        exact hd
      · exact hd.commit hs hj hphase (hfinds t j rfl hj)
    · rintro h s a s' hr ⟨hs, hd⟩ hstep honce t j rfl hj hkind r hrow
      dsimp only at hj hrow
      obtain ⟨hne, -⟩ | ⟨u, j', version, hu, hj', hphase, rfl⟩ := step_cases hstep
      · exact absurd rfl (hne t)
      · obtain rfl : t = u := Act.commit.inj hu
        obtain rfl : j = j' := Option.some.inj (hj.symm.trans hj')
        obtain ⟨-, hpos⟩ := hs.recorded j.bill (by simp [hrow])
        -- a second debit would make the total twice the amount
        have htotal : (s.commit chain t j version).debited j.bill =
            s.debited j.bill + chain.amount j.bill := by simp [State.commit, hkind]
        by_contra hstate
        have hreleased : r.state = .released := by
          cases h : r.state with
          | locked => exact absurd h hstate
          | released => rfl
        rw [hd _ r hrow, if_pos hreleased] at htotal
        rcases honce j.bill with ⟨-, hzero⟩ | ⟨-, hzero | hamount⟩ <;> linarith
  · have hs := Reach.sound hr
    cases hrow : s.locks b with
    | none => exact .inl (hs.fresh b hrow).1
    | some r => exact .inr (hs.recorded b (by simp [hrow])).1

namespace Sample

def receipts : Chain ℕ ℕ Unit := ⟨fun x => .ok (x, ()), fun x => .ok (x - 10, ()), fun _ => 5⟩

def start : State ℕ ℕ Unit ℕ where
  locks := fun _ => none
  byTx := fun _ => none
  cap := fun _ => none
  inserting := fun _ => none
  insertingTx := fun _ => none
  holder := fun _ => none
  session := fun _ => none
  credited := fun _ => 0
  debited := fun _ => 0

def locking (b : ℕ) : List (Act ℕ ℕ Unit ℕ Unit) :=
  [.claimLock 0 () b [()], .insert 0, .credit 0, .commit 0]

def twice : List (Act ℕ ℕ Unit ℕ Unit) :=
  locking 1 ++ locking 2 ++ [.claimUnlock 0 () 1 11 [()], .claimUnlock 1 () 1 11 [()], .judge 0,
    .debit 0, .commit 0, .judge 1, .debit 1, .commit 1]

def after (as : List (Act ℕ ℕ Unit ℕ Unit)) : State ℕ ℕ Unit ℕ :=
  stateAfter (step receipts) as start

end Sample

open WalletLock.Sample

theorem claims_once_sample : (after (locking 1 ++ [.claimLock 1 () 1 [()]])).credited 1 = 5 ∧
      ((after (locking 1 ++ [.claimLock 1 () 1 [()]])).credited 2 = 0 ∨
        (after (locking 1 ++ [.claimLock 1 () 1 [()]])).credited 2 = 5) :=
  ⟨by decide +kernel, (claims_once_iff (.stateAfter
    (.start ⟨fun _ => rfl, fun _ => rfl, fun _ => rfl, fun _ => rfl⟩))).2 2⟩

/-- **A bill is debited twice.** Both requests read the row while it is locked, and the available
credits of the other bill cover the second debit. -/
theorem unlock_debited_twice : Reach receipts (record (step receipts) twice start [])
        (after twice) ∧
      (after twice).credited 1 = 5 ∧ (after twice).debited 1 = 10 ∧
      (after twice).balances () .availableCredits = 0 ∧
      ¬ Once receipts (after twice) := by
  have hdebited : (after twice).debited 1 = 10 := by decide +kernel
  refine ⟨.stateAfter (.start ⟨fun _ => rfl, fun _ => rfl, fun _ => rfl, fun _ => rfl⟩),
    by decide +kernel, hdebited, by decide +kernel,
    fun honce => ?_⟩
  have hb := honce 1
  rw [hdebited] at hb
  revert hb
  norm_num [receipts]

end Karma.WalletLock
