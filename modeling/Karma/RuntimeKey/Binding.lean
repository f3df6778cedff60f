import Karma.Spending.Grant

/-! # The public key of a runtime key

`services/runtime_key_service.py`: a runtime key is bound to the public key of an agent. -/

namespace Karma.RuntimeKey

open Evm
open Spending (Text)

/-- `key_binding`. -/
inductive Mode
  | service
  | agent
  | agentPending
deriving DecidableEq

variable {Pub Code Print : Type}

/-- A pending request: the public key, the code issued for it and the end of its life. -/
structure Offer (Pub Code : Type) where
  pub : Pub
  code : Code
  expires : ℕ
  serial : ℕ
deriving DecidableEq

/-- The row of a key, with what was ever issued, read by a confirmation, and compared in vain. -/
structure Key (Pub Code Print : Type) where
  active : Bool
  expireAt : ℕ
  agent : Option Text
  fingerprint : Option Print
  mode : Mode
  bound : Option Pub
  pending : Option (Offer Pub Code)
  attempts : ℕ
  issued : List (Offer Pub Code)
  read : List (Offer Pub Code)
  wrong : List (Offer Pub Code)

def create (agentMode : Bool) (pub : Option Pub) (agent : Option Text) (fingerprint : Option Print)
    (expireAt : ℕ) : Option (Key Pub Code Print) :=
  if agentMode ∧ pub = none then none
  else
    some ⟨true, expireAt, agent, fingerprint,
      if agentMode then .agent else if agent = none then .service else .agentPending,
      pub, none, 0, [], [], []⟩

def Key.blocked (k : Key Pub Code Print) (requireAgentBinding : Bool) : Bool :=
  match k.mode with
  | .agent => k.bound.isNone && requireAgentBinding
  | .service => requireAgentBinding
  | .agentPending => k.bound.isNone

/-- `assert_agent_key_matches_signed_fingerprint`, with `agent_binding_fingerprint`. -/
def Matches [DecidableEq Print] (print : Pub → Print) (fingerprint : Option Print) (pub : Pub) :
    Bool :=
  fingerprint.all (· = print pub)

def Key.loads (k : Key Pub Code Print) (now : ℕ) : Bool := k.active && now ≤ k.expireAt

@[simp, grind] def Key.clear (k : Key Pub Code Print) : Key Pub Code Print :=
  { k with pending := none, attempts := 0 }

inductive Key.Act (Pub Code : Type)
  | request (now : ℕ) (agentId : Text) (pub : Pub) (code : Code)
  | activate (now : ℕ) (agentId : Text) (pub : Pub)
  | read (now : ℕ)
  | confirm (now : ℕ) (o : Offer Pub Code) (given : Code)
  | reject (now : ℕ)
  | unbind (now : ℕ)
  | revoke

variable [DecidableEq Pub] [DecidableEq Code] [DecidableEq Print] (print : Pub → Print)

/-- The checks that `request_key_binding` and `activate_key_binding` share. -/
def Key.admits (k : Key Pub Code Print) (now : ℕ) (agentId : Text) (pub : Pub) : Bool :=
  k.loads now && agentId ≠ [] && (k.agent = none ∨ k.agent = some agentId) &&
    Matches print k.fingerprint pub && (k.bound = none ∨ k.bound = some pub)

def Key.step (k : Key Pub Code Print) : Key.Act Pub Code → Option (Key Pub Code Print)
  | .request now agentId pub code =>
    if !k.admits print now agentId pub then none
    else if k.bound ≠ none then some k.clear
    else
      let o : Offer Pub Code := ⟨pub, code, now + 180, k.issued.length⟩
      some { k with pending := some o, attempts := 0, issued := o :: k.issued }
  | .activate now agentId pub =>
    if !k.admits print now agentId pub then none
    else some { k.clear with mode := .agent, bound := some pub }
  | .read now =>
    match k.pending with
    | some o =>
      if !(k.loads now && Matches print k.fingerprint o.pub) then none
      else if o.expires < now then some k.clear
      else some { k with read := o :: k.read }
    | none => none
  | .confirm _ o given =>
    if o ∉ k.read then none
    -- the `UPDATE` sees the row as it is now
    else if k.attempts < 5 ∧ k.pending.isSome then
      if given = o.code then some { k.clear with mode := .agent, bound := some o.pub }
      else some { k with attempts := k.attempts + 1, wrong := o :: k.wrong }
    else some k.clear
  | .reject now => if k.loads now && k.pending.isSome then some k.clear else none
  | .unbind now =>
    if k.loads now && k.bound.isSome then
      some { k.clear with mode := .agentPending, bound := none }
    else none
  | .revoke => some { k with active := false }

/-- The bound key is the one that the owner signed, and a named key without one is refused. -/
def Key.Safe (k : Key Pub Code Print) : Prop :=
  (∀ pub, k.bound = some pub → Matches print k.fingerprint pub) ∧
    (k.agent ≠ none → k.bound = none → ∀ require, k.blocked require)

/-- Runs of a minted key; a public key named at the mint is the one that was signed. -/
abbrev Key.Reach :=
  Run (fun k : Key Pub Code Print => (∃ agentMode pub agent fingerprint expireAt,
    create agentMode pub agent fingerprint expireAt = some k) ∧ k.Safe print) (Key.step print)

def Approved (e : Entry (Key Pub Code Print) (Key.Act Pub Code)) : Prop :=
  e.post.bound ≠ e.pre.bound → (e.pre.bound = none ∨ e.post.bound = none) ∧ match e.act with
    | .confirm now o given => e.post.bound = some o.pub ∧ o ∈ e.pre.issued ∧ given = o.code ∧
        now ≤ o.expires ∧ e.pre.wrong.count o ≤ 5
    | .activate _ _ pub => e.post.bound = some pub
    | .unbind _ => e.post.bound = none
    | _ => False

def Timely (e : Entry (Key Pub Code Print) (Key.Act Pub Code)) : Prop :=
  match e.act with
  | .confirm now o _ => e.post.bound ≠ e.pre.bound →
      now ≤ o.expires ∧ (e.pre.pending ≠ some o → e.pre.wrong.count o ≤ 5)
  | _ => True

structure Key.Sound (k : Key Pub Code Print) : Prop where
  named : k.mode = .service → k.agent = none
  agent : k.mode = .agent → k.bound ≠ none
  idle : k.bound ≠ none → k.pending = none
  bound : ∀ pub, k.bound = some pub → Matches print k.fingerprint pub
  issued : ∀ o ∈ k.issued, Matches print k.fingerprint o.pub ∧ o.serial < k.issued.length
  read : ∀ o ∈ k.read, o ∈ k.issued
  wrong : ∀ o ∈ k.wrong, o ∈ k.issued
  pending : ∀ o, k.pending = some o → o ∈ k.issued
  tries : ∀ o, k.pending = some o → k.wrong.count o ≤ k.attempts ∧ k.attempts ≤ 5

variable {print} {k k' : Key Pub Code Print} {a : Key.Act Pub Code}

theorem Key.Sound.safe (hk : k.Sound print) : k.Safe print := by
  refine ⟨hk.bound, fun hagent hnone require => ?_⟩
  have := hk.named
  have := hk.agent
  cases hmode : k.mode <;> simp_all [Key.blocked]

theorem Key.Sound.step (hk : k.Sound print) (hs : k.step print a = some k') : k'.Sound print := by
  obtain ⟨named, agent, idle, bound, issued, read, wrong, pending, tries⟩ := hk
  cases a with
  | request now agentId pub code =>
    simp only [Key.step] at hs
    split_ifs at hs with hadmits hbound <;> cases hs
    · constructor <;> grind
    · have hmatch : Matches print k.fingerprint pub := by
        simp [Key.admits] at hadmits
        exact hadmits.1.2
      -- the serial number is new
      have hnew : ⟨pub, code, now + 180, k.issued.length⟩ ∉ k.wrong :=
        fun h => absurd (issued _ (wrong _ h)).2 (lt_irrefl _)
      constructor <;> grind [List.count_eq_zero]
  | activate now agentId pub =>
    simp only [Key.step] at hs
    split_ifs at hs with hadmits
    cases hs
    constructor <;> grind [Key.admits]
  | read now | confirm now o given | reject now | unbind now | revoke =>
    constructor <;> grind [Key.step]

theorem sound_of_create {agentMode : Bool} {pub : Option Pub} {agent : Option Text}
    {fingerprint : Option Print} {expireAt : ℕ}
    (hk : create agentMode pub agent fingerprint expireAt = some k)
    (hpub : ∀ key, pub = some key → Matches print fingerprint key) : k.Sound print := by
  simp only [create] at hk
  split_ifs at hk with hmode
  all_goals cases hk; constructor <;> grind

theorem Key.Reach.sound {h : List (Entry _ _)} (hr : Key.Reach print h k) : k.Sound print := by
  refine hr.safe (fun k h0 => ?_) fun _ _ _ hk hs => hk.step hs
  obtain ⟨⟨agentMode, pub, agent, fingerprint, expireAt, hk⟩, hsafe⟩ := h0
  refine sound_of_create hk fun key hkey => ?_
  have := hsafe.1 key
  grind [create]

theorem Key.Sound.approved_iff (hk : k.Sound print) (hs : k.step print a = some k') :
    Approved ⟨k, a, k'⟩ ↔ Timely ⟨k, a, k'⟩ := by
  have hidle := hk.idle
  have hread := hk.read
  have htries := hk.tries
  simp only [Approved, Timely]
  cases a <;> grind [Key.step, Key.admits]

/-- Whatever is asked in whatever order, a bound key is the one that was signed and a named key
without one is refused, unless the mint itself names a public key with another fingerprint. -/
theorem bound_key_approved_iff :
    (∀ agentMode pub agent fingerprint expireAt (k : Key Pub Code Print),
      create agentMode pub agent fingerprint expireAt = some k →
        (k.Safe print ↔ ∀ key, pub = some key → Matches print fingerprint key)) ∧
    ∀ h (k : Key Pub Code Print), Key.Reach print h k → Throughout (fun _ k => k.Safe print) h k ∧
        ((∀ e ∈ h, Approved e) ↔ ∀ e ∈ h, Timely e) := by
  refine ⟨fun agentMode pub agent fingerprint expireAt k hk => ⟨fun hsafe key hkey => ?_,
    fun hpub => (sound_of_create hk hpub).safe⟩, fun h k hr => ⟨throughout_iff_pre.mpr
      ⟨hr.sound.safe, fun e he => ?_⟩, forall₂_congr fun e he => ?_⟩⟩
  · have := hsafe.1 key
    grind [create]
  all_goals obtain ⟨h', hr', hs⟩ := hr.of_mem he
  · exact (Key.Reach.sound hr').safe
  · exact (Key.Reach.sound hr').approved_iff hs

namespace Sample

def minted : Key ℕ ℕ ℕ := ⟨true, 1000, some ['a'], none, .agentPending, none, none, 0, [], [], []⟩

def bindAfter (as : List (Key.Act ℕ ℕ)) := stateAfter (Key.step id) as minted

def bindHistory (as : List (Key.Act ℕ ℕ)) := record (Key.step id) as minted []

theorem reach_bind (as : List (Key.Act ℕ ℕ))
    (hsome : (steps (Key.step id) as minted).isSome = true) :
    Key.Reach id (bindHistory as) (bindAfter as) :=
  Run.stateAfter (.start ⟨⟨false, none, some ['a'], none, 1000, rfl⟩,
    by simp [Key.Safe, minted, Key.blocked]⟩) hsome

def offered : Offer ℕ ℕ := ⟨1, 7, 180, 0⟩

def guessing : List (Key.Act ℕ ℕ) :=
  .request 0 ['a'] 1 7 :: .read 1 :: List.replicate 5 (.confirm 2 offered 9)

end Sample

open Sample in
theorem bound_key_approved_sample :
    (∀ e ∈ bindHistory guessing, Approved e) ↔ ∀ e ∈ bindHistory guessing, Timely e :=
  (bound_key_approved_iff.2 _ _ (reach_bind guessing (by decide +kernel))).2

open Sample in
/-- A new request of another public key resets the count, and confirmations that had read the old
one go on. -/
theorem stale_confirmation :
    let as := guessing ++ [.request 3 ['a'] 2 8, .confirm 4 offered 9, .confirm 5 offered 7]
    (Key.Reach id (bindHistory as) (bindAfter as) ∧ (bindAfter as).bound = some 1 ∧
      ¬ ∀ e ∈ bindHistory as, Approved e) ∧
    ∃ k : Key ℕ ℕ ℕ, create true (some 1) none (some 2) 1000 = some k ∧ ¬ k.Safe id := by
  refine ⟨⟨reach_bind _ (by decide +kernel), by decide +kernel, fun h => ?_⟩, _, rfl, fun h => ?_⟩
  · have := (h _ List.mem_cons_self (by decide +kernel)).2.2.2.2.2
    exact absurd this (by decide +kernel)
  · exact absurd (h.1 1 rfl) (by decide)

end Karma.RuntimeKey
