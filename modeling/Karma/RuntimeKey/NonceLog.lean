import Karma.Evm.Run

/-! # `runtime_nonce_log` — one nonce, one attempt

The row of one key, endpoint and nonce; times are in microseconds. A claim takes the time, reads the
row, and then inserts one under the unique key or takes over the one it has read. -/

namespace Karma.NonceLog

open Evm Function

/-- `STALE_IN_FLIGHT_SECONDS`. -/
def stale : ℕ := 120_000_000

/-- `PURGE_AFTER_SECONDS`. -/
def retention : ℕ := 7 * 24 * 3600 * 1_000_000

/-- `RuntimeNonceLogModel`; without a result it is `in_flight`. -/
structure Row (H R : Type) where
  hash : H
  createdAt : ℕ
  result : Option R
deriving DecidableEq

/-- An attempt that was told `new`: its request and its time. -/
structure Attempt (H : Type) where
  hash : H
  since : ℕ
deriving DecidableEq

structure Claim (H R : Type) where
  hash : H
  now : ℕ
  seen : Option (Row H R)

/-- The row and the claims, the attempts that run, the results of those that have completed, and
what was replayed to which request. -/
structure State (H R : Type) where
  row : Option (Row H R)
  clock : ℕ
  claims : ℕ → Option (Claim H R)
  live : List (Attempt H)
  completed : List (Attempt H × R)
  replayed : List (H × R)

inductive Act (H R : Type)
  | tick (time : ℕ)
  | read (k : ℕ) (hash : H) (now : ℕ)
  | insert (k : ℕ)
  | takeOver (k : ℕ)
  | replay (k : ℕ)
  | complete (a : Attempt H) (payload : R)
  | die (a : Attempt H)
  | forget
  | purge

variable {H R : Type} [DecidableEq H] [DecidableEq R] {readBack : R → R}

/-- `readBack` is what comes back of a payload whose text was cut at `MAX_PAYLOAD_CHARS`. Attempts
end within the stale limit. -/
def step (readBack : R → R) (s : State H R) : Act H R → Option (State H R)
  | .tick time =>
    if s.clock ≤ time ∧ ∀ a ∈ s.live, time ≤ a.since + stale then some { s with clock := time }
    else none
  | .read k hash now =>
    if now ≤ s.clock then some { s with claims := update s.claims k (some ⟨hash, now, s.row⟩) }
    else none
  | .insert k =>
    match s.claims k with
    | some ⟨hash, now, none⟩ =>
      -- the unique key: the row of another claim is read
      if s.row.isSome then some { s with claims := update s.claims k (some ⟨hash, now, s.row⟩) }
      else if s.clock ≤ now + stale then
        some { s with
          row := some ⟨hash, now, none⟩
          claims := update s.claims k none
          live := ⟨hash, now⟩ :: s.live }
      else none
    | _ => none
  | .takeOver k =>
    match s.claims k, s.row with
    | some ⟨hash, now, some seen⟩, some row =>
      -- of the columns only `created_at` differs from what was read, so only it is written
      if seen.hash = hash ∧ seen.result = none ∧ seen.createdAt + stale < now ∧
          s.clock ≤ now + stale then
        some { s with
          row := some { row with createdAt := now }
          claims := update s.claims k none
          live := ⟨hash, now⟩ :: s.live }
      else none
    | _, _ => none
  | .replay k =>
    match s.claims k with
    | some ⟨hash, _, some seen⟩ =>
      if seen.hash = hash then
        seen.result.map fun payload => { s with
          claims := update s.claims k none
          replayed := (hash, payload) :: s.replayed }
      else none
    | _ => none
  | .complete a payload =>
    if a ∈ s.live then
      some { s with
        row := s.row.map fun row => { row with result := some (readBack payload) }
        live := s.live.erase a
        completed := (a, payload) :: s.completed }
    else none
  | .die a => if a ∈ s.live then some { s with live := s.live.erase a } else none
  | .forget => some { s with row := none }
  | .purge =>
    if s.row.any (·.createdAt + retention < s.clock) then some { s with row := none } else none

def State.start : State H R := ⟨none, 0, fun _ => none, [], [], []⟩

/-- **What a claim or a `forget` has to find**: a takeover the row that was read, a `forget` no
attempt and no result; and a completion a payload that is stored whole. -/
def current (readBack : R → R) (s : State H R) : Act H R → Bool
  | .takeOver k => (s.claims k).all (·.seen = s.row)
  | .complete _ payload => readBack payload = payload
  | .forget => s.live.isEmpty && s.row.all (·.result = none)
  | _ => true

/-- An attempt with the request `hash` has completed with `payload`. -/
def State.Known (s : State H R) (hash : H) (payload : R) : Prop :=
  ∃ c ∈ s.completed, c.1.hash = hash ∧ c.2 = payload

/-- **One attempt at a time, none within the retention time of a completed one, and replays of the
same request.** -/
structure Exclusive (s : State H R) : Prop where
  live : s.live.length ≤ 1
  fresh : s.live ≠ [] → ∀ c ∈ s.completed, c.1.since + retention < s.clock
  replayed : ∀ x ∈ s.replayed, s.Known x.1 x.2

/-- What was read of the row is not from the future, and a result in it is known. -/
def State.Fits (s : State H R) (c : Claim H R) : Prop :=
  c.now ≤ s.clock ∧ ∀ row ∈ c.seen, ∀ payload ∈ row.result, s.Known row.hash payload

structure Sound (s : State H R) : Prop where
  live : s.live = [] ∨ ∃ a, s.live = [a] ∧ s.row = some ⟨a.hash, a.since, none⟩ ∧
    s.clock ≤ a.since + stale
  known : ∀ row ∈ s.row, ∀ payload ∈ row.result, s.Known row.hash payload
  kept : ∀ c ∈ s.completed, c.1.since + retention < s.clock ∨
    ∃ row ∈ s.row, row.result ≠ none ∧ row.createdAt = c.1.since
  claims : ∀ k, ∀ c ∈ s.claims k, s.Fits c
  replayed : ∀ x ∈ s.replayed, s.Known x.1 x.2

variable {s s' : State H R}

section

omit [DecidableEq H] [DecidableEq R]

/-- Without a result in the row, what has completed is past the retention time. -/
theorem Sound.expired (hs : Sound s) (hrow : ∀ row ∈ s.row, row.result = none) :
    ∀ c ∈ s.completed, c.1.since + retention < s.clock := fun c hc =>
  (hs.kept c hc).resolve_right fun ⟨row, hr, hne, _⟩ => hne (hrow row hr)

theorem Sound.exclusive (hs : Sound s) : Exclusive s := by
  rcases hs.live with hlive | ⟨a, hlive, hrow, -⟩
  · exact ⟨by simp [hlive], fun hne => absurd hlive hne, hs.replayed⟩
  · refine ⟨by simp [hlive], fun _ => hs.expired ?_, hs.replayed⟩
    rw [hrow]
    rintro _ ⟨⟩
    rfl

theorem Sound.claims_update (hs : Sound s) (k : ℕ) {o : Option (Claim H R)}
    (ho : ∀ c ∈ o, s.Fits c) (k' : ℕ) : ∀ c ∈ update s.claims k o k', s.Fits c :=
  (forall_update_iff s.claims fun _ o => ∀ c ∈ o, s.Fits c).mpr ⟨ho, fun k' _ => hs.claims k'⟩ k'

theorem Sound.live_eq_nil (hs : Sound s) {row : Row H R} (hrow : s.row = some row)
    (hstale : row.createdAt + stale < s.clock) : s.live = [] := by
  refine hs.live.resolve_right fun ⟨a, _, ha, hclock⟩ => ?_
  rw [hrow, Option.some.injEq] at ha
  rw [ha] at hstale
  exact absurd hstale (Nat.not_lt.mpr hclock)

theorem Sound.begin (hs : Sound s) (k : ℕ) (hash : H) {now : ℕ} (hlive : s.live = [])
    (hrow : ∀ row ∈ s.row, row.result = none) (hclock : s.clock ≤ now + stale) :
    Sound { s with
      row := some ⟨hash, now, none⟩
      claims := update s.claims k none
      live := ⟨hash, now⟩ :: s.live } where
  live := .inr ⟨⟨hash, now⟩, by rw [hlive], rfl, hclock⟩
  known := by rintro _ ⟨⟩ _ ⟨⟩
  kept c hc := .inl (hs.expired hrow c hc)
  claims := hs.claims_update k (by rintro _ ⟨⟩)
  replayed := hs.replayed

theorem Sound.read (hs : Sound s) (k : ℕ) {hash : H} {now : ℕ} (hnow : now ≤ s.clock) :
    Sound { s with claims := update s.claims k (some ⟨hash, now, s.row⟩) } where
  live := hs.live
  known := hs.known
  kept := hs.kept
  claims := hs.claims_update k (by rintro _ ⟨⟩; exact ⟨hnow, hs.known⟩)
  replayed := hs.replayed

theorem Sound.remove (hs : Sound s) (hlive : s.live = [])
    (hexpired : ∀ c ∈ s.completed, c.1.since + retention < s.clock) :
    Sound { s with row := none } where
  live := .inl hlive
  known := by rintro _ ⟨⟩
  kept c hc := .inl (hexpired c hc)
  claims := hs.claims
  replayed := hs.replayed

end

omit [DecidableEq R] in
theorem Sound.erase (hs : Sound s) {a : Attempt H} (ha : a ∈ s.live) :
    s.live.erase a = [] ∧ s.row = some ⟨a.hash, a.since, none⟩ := by
  rcases hs.live with hlive | ⟨b, hlive, hrow, -⟩
  · rw [hlive] at ha
    cases ha
  · rw [hlive] at ha ⊢
    obtain rfl := List.mem_singleton.mp ha
    exact ⟨List.erase_cons_head .., hrow⟩

omit [DecidableEq R] in
theorem Sound.complete (hs : Sound s) {a : Attempt H} {payload : R} (ha : a ∈ s.live) :
    Sound { s with
      row := s.row.map fun row => { row with result := some payload }
      live := s.live.erase a
      completed := (a, payload) :: s.completed } := by
  obtain ⟨hlive, hrow⟩ := hs.erase ha
  have hmore : ∀ {hash p}, s.Known hash p → ∃ c ∈ (a, payload) :: s.completed,
      c.1.hash = hash ∧ c.2 = p := fun ⟨c, hc, h⟩ => ⟨c, List.mem_cons_of_mem _ hc, h⟩
  refine ⟨.inl hlive, ?_, fun c hc => ?_, fun k c hc => ?_, fun x hx => hmore (hs.replayed x hx)⟩
  · rw [hrow]
    rintro _ ⟨⟩ _ ⟨⟩
    exact ⟨_, List.mem_cons_self, rfl, rfl⟩
  · rcases List.mem_cons.mp hc with rfl | hc
    · exact .inr ⟨_, by rw [hrow]; rfl, Option.some_ne_none _, rfl⟩
    · exact .inl (hs.expired (by rw [hrow]; rintro _ ⟨⟩; rfl) c hc)
  · obtain ⟨hnow, hseen⟩ := hs.claims k c hc
    exact ⟨hnow, fun row hr p hp => hmore (hseen row hr p hp)⟩

theorem Sound.step {a : Act H R} (hs : Sound s) (h : step readBack s a = some s')
    (hcur : current readBack s a = true) : Sound s' := by
  cases a with
  | tick time =>
    obtain ⟨⟨htime, hlimit⟩, rfl⟩ := guarded_iff.mp h
    refine ⟨hs.live.imp_right fun ⟨a, hlive, hrow, _⟩ => ⟨a, hlive, hrow, ?_⟩, hs.known,
      fun c hc => (hs.kept c hc).imp_left fun hlt => Nat.lt_of_lt_of_le hlt htime,
      fun k c hc => ⟨Nat.le_trans (hs.claims k c hc).1 htime, (hs.claims k c hc).2⟩, hs.replayed⟩
    exact hlimit a (by rw [hlive]; exact List.mem_cons_self)
  | read k hash now =>
    obtain ⟨hnow, rfl⟩ := guarded_iff.mp h
    exact hs.read k hnow
  | insert k =>
    simp only [NonceLog.step] at h
    split at h
    next hash now hclaim =>
      obtain ⟨hnow, -⟩ := hs.claims k _ hclaim
      split_ifs at h with hsome hclock
      · cases h
        exact hs.read k hnow
      · cases h
        rw [Option.not_isSome_iff_eq_none] at hsome
        refine hs.begin k hash (hs.live.resolve_right fun ⟨a, _, hrow, _⟩ => ?_) ?_ hclock
        · rw [hsome] at hrow
          cases hrow
        · rw [hsome]
          rintro _ ⟨⟩
    next => cases h
  | takeOver k =>
    simp only [NonceLog.step] at h
    split at h
    next hash now seen row hclaim hrow =>
      obtain ⟨⟨rfl, hresult, hstale, hclock⟩, rfl⟩ := guarded_iff.mp h
      obtain ⟨hnow, -⟩ := hs.claims k _ hclaim
      simp only [current, hclaim, hrow, Option.all_some, decide_eq_true_eq,
        Option.some.injEq] at hcur
      subst hcur
      have hnone : ∀ row ∈ s.row, row.result = none := by
        rw [hrow]
        rintro _ ⟨⟩
        exact hresult
      have hbegin := hs.begin k seen.hash
        (hs.live_eq_nil hrow (Nat.lt_of_lt_of_le hstale hnow)) hnone hclock
      rwa [← hresult] at hbegin
    next => cases h
  | replay k =>
    simp only [NonceLog.step] at h
    split at h
    next hash now seen hclaim =>
      simp only [Option.ite_none_right_eq_some, Option.map_eq_some_iff] at h
      obtain ⟨rfl, payload, hpayload, rfl⟩ := h
      refine ⟨hs.live, hs.known, hs.kept, hs.claims_update k (by rintro _ ⟨⟩), ?_⟩
      exact List.forall_mem_cons.mpr
        ⟨(hs.claims k _ hclaim).2 seen rfl payload hpayload, hs.replayed⟩
    next => cases h
  | complete a payload =>
    obtain ⟨ha, rfl⟩ := guarded_iff.mp h
    rw [of_decide_eq_true hcur]
    exact hs.complete ha
  | die a =>
    obtain ⟨ha, rfl⟩ := guarded_iff.mp h
    exact ⟨.inl (hs.erase ha).1, hs.known, hs.kept, hs.claims, hs.replayed⟩
  | forget =>
    cases h
    simp only [current, Bool.and_eq_true, List.isEmpty_iff, Option.all_eq_true,
      decide_eq_true_eq] at hcur
    exact hs.remove hcur.1 (hs.expired hcur.2)
  | purge =>
    obtain ⟨hold, rfl⟩ := guarded_iff.mp h
    obtain ⟨row, hrow, hlt⟩ := (Option.any_eq_true ..).mp hold
    rw [decide_eq_true_eq] at hlt
    have hstale : stale < retention := by decide
    refine hs.remove (hs.live_eq_nil hrow (by omega)) fun c hc => ?_
    rcases hs.kept c hc with hlt' | ⟨row', hrow', -, hsince⟩
    · exact hlt'
    · obtain rfl : row = row' := Option.some.inj (hrow.symm.trans hrow')
      rwa [← hsince]

/-- **One nonce, one running attempt, as long as every takeover finds the row it has read.** -/
theorem one_attempt_per_nonce {h : List (Entry (State H R) (Act H R))}
    (hr : Run (· = State.start) (NonceLog.step readBack) h s)
    (hcur : ∀ e ∈ h, current readBack e.pre e.act = true) :
    Throughout (fun _ s => Exclusive s) h s := by
  refine hr.throughout_of (J := Sound) ?_ (fun _ _ _ hs h => hs.step h)
    (fun _ hs => hs.exclusive) hcur
  rintro _ rfl
  constructor <;> simp [State.start]

namespace Sample

/-- The first attempt has died, and two claims read its row when it is stale. -/
def twoClaims : List (Act ℕ ℕ) :=
  [.read 0 7 0, .insert 0, .die ⟨7, 0⟩, .tick 200_000_000, .read 1 7 200_000_000,
    .read 2 7 200_000_000, .takeOver 1]

def once : List (Act ℕ ℕ) := twoClaims ++ [.complete ⟨7, 200_000_000⟩ 5, .read 3 7 0, .replay 3]

def twice : List (Act ℕ ℕ) := twoClaims ++ [.takeOver 2]

def after (as : List (Act ℕ ℕ)) : State ℕ ℕ := stateAfter (step id) as .start

end Sample

open NonceLog.Sample

theorem taken_over_once : Exclusive (after once) :=
  (one_attempt_per_nonce (.stateAfter (.start rfl)) (by decide +kernel)).last

theorem taken_over_twice :
    Run (· = State.start) (step id) (record (step id) twice .start []) (after twice) ∧
      ¬ Exclusive (after twice) :=
  ⟨.stateAfter (.start rfl), fun h => absurd h.live (by decide +kernel)⟩

end Karma.NonceLog
