import Karma.Evm.Run
import Mathlib.Data.List.Induction

/-! # `identity_gateway/state_machine` — the trust ledger

The keyed hash is a function `mac` of the hash before an entry, where `none` is `GENESIS`, and of
the entry without its own hash. -/

namespace Karma.TrustLedger

open Evm

/-- An entry: what is hashed, and `entry_hash`. -/
structure Record (Body Hash : Type) where
  body : Body
  entryHash : Hash
deriving DecidableEq

section

variable {Body Hash : Type} (mac : Option Hash → Body → Hash) (max : ℕ)

def lastHash (l : List (Record Body Hash)) : Option Hash := l.getLast?.map Record.entryHash

/-- The loop that hashes the entries again from `prev` on. -/
def rebase : Option Hash → List (Record Body Hash) → List (Record Body Hash)
  | _, [] => []
  | prev, e :: l => ⟨e.body, mac prev e.body⟩ :: rebase (some (mac prev e.body)) l

/-- `_append_ledger_locked`, where `max` is `_LEDGER_MAX`. -/
def appendLedger (ledger : List (Record Body Hash)) (body : Body) : List (Record Body Hash) :=
  let ledger := ledger ++ [⟨body, mac (lastHash ledger) body⟩]
  if max < ledger.length then rebase mac none (ledger.drop (ledger.length - max)) else ledger

/-- The loop of `verify_ledger_integrity`; the result is the index where the chain is broken. -/
def verifyFrom [DecidableEq Hash] : Option Hash → ℕ → List (Record Body Hash) → Option ℕ
  | _, _, [] => none
  | prev, i, e :: l =>
    if e.entryHash = mac prev e.body then verifyFrom (some e.entryHash) (i + 1) l else some i

def verifyLedgerIntegrity [DecidableEq Hash] (ledger : List (Record Body Hash)) : Option ℕ :=
  verifyFrom mac none 0 ledger

/-! ## The running service -/

/-- The ledger in memory, and all that the file has held, the newest first. -/
structure State (Body Hash : Type) where
  ledger : List (Record Body Hash)
  stored : List (List (Record Body Hash))

/-- An append, which may fail to write the file, and a restart, which reads it. -/
inductive Act (Body : Type)
  | append (body : Body) (saved : Bool)
  | load

def init : State Body Hash := ⟨[], [[]]⟩

def step (s : State Body Hash) : Act Body → Option (State Body Hash)
  | .append body saved =>
    let ledger := appendLedger mac max s.ledger body
    some ⟨ledger, if saved then ledger :: s.stored else s.stored⟩
  | .load => some { s with ledger := s.stored.headD [] }

/-- **Without the key**: the hashes of a list that are right are hashes that the file has held. -/
def Assembled (stored : List (List (Record Body Hash))) (l : List (Record Body Hash)) : Prop :=
  ∀ e ∈ l, (∃ prev, e.entryHash = mac prev e.body) →
    ∃ v ∈ stored, ∃ e' ∈ v, e'.entryHash = e.entryHash

/-- No two inputs have the same keyed hash. -/
def CollisionFree : Prop := ∀ p b p' b', mac p b = mac p' b' → p = p' ∧ b = b'

end

variable {Body Hash : Type} {mac : Option Hash → Body → Hash} {max : ℕ}
  {l v : List (Record Body Hash)} {e : Record Body Hash}

/-! ## Chained lists -/

/-- Hashing the list again would change nothing. -/
def Chained (mac : Option Hash → Body → Hash) (l : List (Record Body Hash)) : Prop :=
  rebase mac none l = l

theorem rebase_rebase (prev : Option Hash) (l : List (Record Body Hash)) :
    rebase mac prev (rebase mac prev l) = rebase mac prev l := by
  induction l generalizing prev with
  | nil => rfl
  | cons e l ih => simp only [rebase, ih]

theorem verifyFrom_eq_none [DecidableEq Hash] (prev : Option Hash) (i : ℕ) :
    verifyFrom mac prev i l = none ↔ rebase mac prev l = l := by
  induction l generalizing prev i with
  | nil => exact iff_of_true rfl rfl
  | cons e l ih =>
    obtain ⟨body, hash⟩ := e
    rw [verifyFrom, rebase, List.cons.injEq, Record.mk.injEq, eq_self_iff_true, true_and]
    by_cases h : hash = mac prev body
    · subst h
      rw [if_pos rfl, ih, eq_self_iff_true, true_and]
    · rw [if_neg h]
      exact iff_of_false (Option.some_ne_none i) fun h' => h h'.1.symm

theorem lastHash_concat : lastHash (l ++ [e]) = some e.entryHash := by simp [lastHash]

theorem or_lastHash_cons (prev : Option Hash) :
    (lastHash (e :: l)).or prev = (lastHash l).or (some e.entryHash) := by
  cases l with
  | nil => rfl
  | cons d l => simp [lastHash, List.getLast?_cons]

theorem rebase_concat (prev : Option Hash) : rebase mac prev (l ++ [e]) =
      rebase mac prev l ++ [⟨e.body, mac ((lastHash (rebase mac prev l)).or prev) e.body⟩] := by
  induction l generalizing prev with
  | nil => rfl
  | cons d l ih => simp only [List.cons_append, rebase, ih, or_lastHash_cons]

theorem chained_concat :
    Chained mac (l ++ [e]) ↔ Chained mac l ∧ mac (lastHash l) e.body = e.entryHash := by
  obtain ⟨body, hash⟩ := e
  rw [Chained, rebase_concat, Option.or_none]
  refine ⟨fun h => ?_, fun h => ?_⟩
  · obtain ⟨hl, he⟩ := List.append_inj' h rfl
    rw [hl] at he
    exact ⟨hl, congrArg Record.entryHash (List.singleton_inj.mp he)⟩
  · rw [h.1, h.2]

theorem Chained.of_append {l' : List (Record Body Hash)} (h : Chained mac (l ++ l')) :
    Chained mac l := by
  induction l' using List.reverseRecOn with
  | nil => rwa [List.append_nil] at h
  | append_singleton l' e ih =>
    rw [← List.append_assoc] at h
    exact ih (chained_concat.mp h).1

/-- **The last hash determines a chained list.** -/
theorem Chained.eq_of_lastHash (hmac : CollisionFree mac) (hl : Chained mac l)
    (hv : Chained mac v) (h : lastHash l = lastHash v) : l = v := by
  induction l using List.reverseRecOn generalizing v with
  | nil =>
    cases v using List.reverseRecOn with
    | nil => rfl
    | append_singleton v d => rw [lastHash_concat] at h; cases h
  | append_singleton l e ih =>
    cases v using List.reverseRecOn with
    | nil => rw [lastHash_concat] at h; cases h
    | append_singleton v d =>
      obtain ⟨body, hash⟩ := e
      obtain ⟨body', hash'⟩ := d
      obtain ⟨hl', hhash⟩ := chained_concat.mp hl
      obtain ⟨hv', hhash'⟩ := chained_concat.mp hv
      obtain rfl : hash = hash' := by simpa only [lastHash_concat, Option.some.injEq] using h
      obtain ⟨hlast, rfl⟩ := hmac _ _ _ _ (hhash.trans hhash'.symm)
      rw [ih hl' hv' hlast]

/-! ## What the service stores -/

theorem chained_appendLedger (max : ℕ) (h : Chained mac l) (body : Body) :
    Chained mac (appendLedger mac max l body) := by
  unfold appendLedger
  dsimp only
  split
  · exact rebase_rebase none _
  · exact chained_concat.mpr ⟨h, rfl⟩

/-- The ledger and every version of the file are chained, and there is a version. -/
structure Sound (mac : Option Hash → Body → Hash) (s : State Body Hash) : Prop where
  ledger : Chained mac s.ledger
  stored : ∀ v ∈ s.stored, Chained mac v
  some : s.stored ≠ []

theorem Sound.run {s : State Body Hash} {h : List (Entry (State Body Hash) (Act Body))}
    (hr : Run (· = init) (step mac max) h s) : Sound mac s := by
  refine hr.safe ?_ ?_
  · rintro _ rfl
    exact ⟨rfl, by simp [init, Chained, rebase], by simp [init]⟩
  · rintro s (⟨body, saved⟩ | _) _ hs ⟨⟩
    · have hnew := chained_appendLedger max hs.ledger body
      cases saved
      · exact ⟨hnew, hs.stored, hs.some⟩
      · exact ⟨hnew, List.forall_mem_cons.mpr ⟨hnew, hs.stored⟩, List.cons_ne_nil _ _⟩
    · refine ⟨?_, hs.stored, hs.some⟩
      obtain ⟨v, rest, hv⟩ := List.exists_cons_of_ne_nil hs.some
      rw [hv]
      exact hs.stored v (by rw [hv]; exact List.mem_cons_self)

/-- What verifies without the key is the beginning of a version that was stored. -/
theorem Sound.exists_version {s : State Body Hash} (hs : Sound mac s) (hmac : CollisionFree mac)
    (ha : Assembled mac s.stored l) (hl : Chained mac l) : ∃ v ∈ s.stored, l <+: v := by
  cases l using List.reverseRecOn with
  | nil =>
    obtain ⟨v, hv⟩ := List.exists_mem_of_ne_nil _ hs.some
    exact ⟨v, hv, List.nil_prefix⟩
  | append_singleton l e =>
    have hhash := (chained_concat.mp hl).2
    obtain ⟨v, hv, d, hd, hde⟩ := ha e (by simp) ⟨_, hhash.symm⟩
    obtain ⟨before, after, rfl⟩ := List.append_of_mem hd
    rw [List.append_cons] at hv
    have hbefore := (hs.stored _ hv).of_append
    have heq := hl.eq_of_lastHash hmac hbefore (by rw [lastHash_concat, lastHash_concat, hde])
    exact ⟨_, hv, heq ▸ List.prefix_append _ _⟩

/-- **The ledger verifies in every run, and of the lists put together without the key exactly those
fail that are not the beginning of a version stored at some time.** -/
theorem tampering_detected_iff [DecidableEq Hash] {s : State Body Hash}
    {h : List (Entry (State Body Hash) (Act Body))} (hmac : CollisionFree mac)
    (hr : Run (· = init) (step mac max) h s) :
    verifyLedgerIntegrity mac s.ledger = none ∧ ∀ l, Assembled mac s.stored l →
      (verifyLedgerIntegrity mac l ≠ none ↔ ¬ ∃ v ∈ s.stored, l <+: v) := by
  have hs := Sound.run hr
  refine ⟨(verifyFrom_eq_none none 0).mpr hs.ledger, fun l ha => not_congr ?_⟩
  refine (verifyFrom_eq_none none 0).trans ⟨hs.exists_version hmac ha, ?_⟩
  rintro ⟨_, hv, rest, rfl⟩
  exact (hs.stored _ hv).of_append

namespace Sample

/-- A keyed hash that keeps all its input. -/
inductive Tag
  | first (body : ℕ)
  | next (prev : Tag) (body : ℕ)
deriving DecidableEq

def tag : Option Tag → ℕ → Tag
  | none, body => .first body
  | some prev, body => .next prev body

def twoAppends : State ℕ Tag := stateAfter (step tag 5) [.append 1 true, .append 2 true] init

def firstOnly : List (Record ℕ Tag) := [⟨1, .first 1⟩]

def swapped : List (Record ℕ Tag) := [⟨2, .next (.first 1) 2⟩, ⟨1, .first 1⟩]

theorem collisionFree_tag : CollisionFree tag := by
  rintro (_ | p) b (_ | p') b' h <;> cases h <;> exact ⟨rfl, rfl⟩

theorem run_twoAppends : ∃ h, Run (· = init) (step tag 5) h twoAppends := by
  have h0 : Run (· = init) (step tag 5) [] init := .start rfl
  exact ⟨_, h0.stateAfter (by decide +kernel)⟩

theorem assembled_of_mem (l : List (Record ℕ Tag))
    (h : ∀ e ∈ l, ∃ v ∈ twoAppends.stored, ∃ e' ∈ v, e'.entryHash = e.entryHash) :
    Assembled tag twoAppends.stored l := fun e he _ => h e he

end Sample

open TrustLedger.Sample

theorem swapped_entries_detected : verifyLedgerIntegrity tag swapped ≠ none := by
  obtain ⟨h, hr⟩ := run_twoAppends
  exact ((tampering_detected_iff collisionFree_tag hr).2 swapped
    (assembled_of_mem _ (by decide +kernel))).mpr (by decide +kernel)

/-- The newest entry is deleted, and nothing shows it. -/
theorem deleted_tail_accepted : (∃ h, Run (· = init) (step tag 5) h twoAppends) ∧
    CollisionFree tag ∧ Assembled tag twoAppends.stored firstOnly ∧
    firstOnly ≠ twoAppends.ledger ∧ verifyLedgerIntegrity tag firstOnly = none :=
  ⟨run_twoAppends, collisionFree_tag, assembled_of_mem _ (by decide +kernel),
    by decide +kernel, by decide +kernel⟩

end Karma.TrustLedger
