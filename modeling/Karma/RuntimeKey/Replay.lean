import Karma.Spending.Grant
import Mathlib.Data.List.DropRight

/-! # Signed requests of a runtime key

`verify_signed_request` of `services/runtime_key_service.py` on one bound key, with the replay
memory of `check_replay_nonce`. -/

namespace Karma.RuntimeKey

open Evm
open Spending (Text line)

variable {Body Sig : Type}

structure Request (Body : Type) where
  method : Text
  path : Text
  timestamp : ℕ
  nonce : Text
  body : Body
deriving DecidableEq

structure Call (Body Sig : Type) where
  request : Request Body
  signature : Sig
  now : ℕ
deriving DecidableEq

structure Verifier (Body Sig : Type) where
  keyId : Text
  utc : ℕ → Text
  sha256 : Body → Text
  verify : Text → Sig → Bool

def Verifier.message (v : Verifier Body Sig) (r : Request Body) : Text :=
  ['\n'].intercalate ["Karma Runtime Request".toList, line "key_id" v.keyId,
      line "method" (r.method.map Char.toUpper),
      line "path" r.path,
      line "timestamp" (v.utc (r.timestamp / 1000000)),
      line "nonce" r.nonce,
      line "body_sha256" (v.sha256 r.body)]

def Verifier.signed (v : Verifier Body Sig) (c : Call Body Sig) : Bool :=
  c.now ≤ c.request.timestamp + 300000000 && c.request.timestamp ≤ c.now + 300000000 &&
    c.request.nonce ≠ [] && c.request.nonce.length ≤ 128 &&
    v.verify (v.message c.request) c.signature

def Request.tag (r : Request Body) : Text := r.path ++ ':' :: r.nonce

def Call.entry (c : Call Body Sig) : Text × ℕ := (c.request.tag, c.now)

/-- The process: its clock, the deque of the key, the newest entry first, and the calls that were
accepted. -/
structure Guard (Body Sig : Type) where
  clock : ℕ
  replay : List (Text × ℕ)
  accepted : List (Call Body Sig)

/-- The deque without its old entries, popped from the left. -/
def unexpired (replay : List (Text × ℕ)) (now : ℕ) : List (Text × ℕ) :=
  replay.rdropWhile fun x => x.2 + 600000000 < now

def Verifier.step (v : Verifier Body Sig) (g : Guard Body Sig) (c : Call Body Sig) :
    Option (Guard Body Sig) :=
  let replay := unexpired g.replay c.now
  if g.clock ≤ c.now then
    if !v.signed c then some { g with clock := c.now }
    else if replay.any (·.1 = c.request.tag) then some { g with clock := c.now, replay := replay }
    else some ⟨c.now, (c.entry :: replay).take 2000, c :: g.accepted⟩
  else none

def Guard.Fresh (g : Guard Body Sig) : Prop := g.replay = [] ∧ g.accepted = []

abbrev Verifier.Reach (v : Verifier Body Sig) := Run Guard.Fresh v.step

def Guard.Once (g : Guard Body Sig) : Prop := g.accepted.Pairwise (·.request ≠ ·.request)

theorem mem_unexpired {q : List (Text × ℕ)} {x : Text × ℕ} {now : ℕ} (hx : x ∈ q)
    (hnow : now ≤ x.2 + 600000000) : x ∈ unexpired q now := by
  rw [← List.rdropWhile_append_rtakeWhile (p := fun x => decide (x.2 + 600000000 < now))
    (l := q)] at hx
  rcases List.mem_append.mp hx with hx | hx
  · exact hx
  · have := List.mem_rtakeWhile_imp hx
    simp only [decide_eq_true_eq] at this
    omega

structure Verifier.Memory (v : Verifier Body Sig) (g : Guard Body Sig) : Prop where
  newest : g.replay <+: (g.accepted.map Call.entry).take 2000
  young : ∀ x ∈ (g.accepted.map Call.entry).take 2000, g.clock ≤ x.2 + 600000000 → x ∈ g.replay
  sorted : g.accepted.Pairwise fun c c' => c'.now ≤ c.now
  past : ∀ c ∈ g.accepted, v.signed c ∧ c.now ≤ g.clock

variable {v : Verifier Body Sig} {g g' : Guard Body Sig} {c : Call Body Sig}

theorem mem_take_cons {x y : Text × ℕ} {q l : List (Text × ℕ)} (hq : q <+: l.take 2000)
    (hy : y ∈ (x :: l).take 2000) (hyq : y ∈ l.take 2000 → y ∈ q) : y ∈ (x :: q).take 2000 := by
  simp only [List.take_succ_cons, List.mem_cons] at hy ⊢
  refine hy.imp_right fun hy => ?_
  rcases Nat.lt_or_ge q.length 2000 with hlen | hlen
  · rw [List.take_of_length_le (by omega)]
    exact hyq (List.take_subset_take_left l (by omega) hy)
  -- a full memory is the last 2000
  · have : q = l.take 2000 := hq.eq_of_length_le ((List.length_take_le ..).trans hlen)
    rw [this, List.take_take]
    exact hy

theorem Verifier.Memory.step (hm : v.Memory g) (hs : v.step g c = some g') : v.Memory g' := by
  obtain ⟨newest, young, sorted, past⟩ := hm
  simp only [Verifier.step] at hs
  split_ifs at hs with hclock hsig hdup <;> cases hs
  all_goals have hpast : ∀ d ∈ g.accepted, v.signed d ∧ d.now ≤ c.now :=
    fun d hd => (past d hd).imp_right (·.trans hclock)
  · exact ⟨newest, fun x hx h => young x hx (hclock.trans h), sorted, hpast⟩
  all_goals have hq : unexpired g.replay c.now <+: (g.accepted.map Call.entry).take 2000 :=
    (List.rdropWhile_prefix _ _).trans newest
  all_goals have hkept : ∀ x ∈ (g.accepted.map Call.entry).take 2000,
      c.now ≤ x.2 + 600000000 → x ∈ unexpired g.replay c.now :=
    fun x hx h => mem_unexpired (young x hx (hclock.trans h)) h
  · exact ⟨hq, hkept, sorted, hpast⟩
  · refine ⟨?_, fun x hx h => mem_take_cons hq hx fun hx => hkept x hx h, ?_, ?_⟩
    · simpa [List.take_take] using hq.take 1999
    · exact List.pairwise_cons.mpr ⟨fun d hd => (hpast d hd).2, sorted⟩
    · exact List.forall_mem_cons.mpr ⟨⟨by simpa using hsig, le_rfl⟩, hpast⟩

theorem Verifier.Memory.recent (hm : v.Memory g) {now : ℕ} {x : Text × ℕ}
    (hx : x ∈ unexpired g.replay now) : ∃ d ∈ g.accepted.take 2000, d.entry = x := by
  have := hm.newest.subset ((List.rdropWhile_prefix _ _).subset hx)
  rwa [← List.map_take, List.mem_map] at this

theorem Verifier.Memory.accepts (hm : v.Memory g) (hsig : v.signed c) (hclock : g.clock ≤ c.now)
    (hnew : ∀ d ∈ g.accepted.take 2000, d.request.tag ≠ c.request.tag) :
    ∃ g', v.step g c = some g' ∧ g'.clock = c.now ∧ g'.accepted = c :: g.accepted := by
  have hdup : (unexpired g.replay c.now).any (·.1 = c.request.tag) = false := by
    refine List.any_eq_false.mpr fun x hx => ?_
    obtain ⟨d, hd, rfl⟩ := hm.recent hx
    simp [Call.entry, hnew d hd]
  refine ⟨⟨c.now, (c.entry :: unexpired g.replay c.now).take 2000, c :: g.accepted⟩, ?_, rfl, rfl⟩
  simp [Verifier.step, hclock, hsig, hdup]

namespace Sample

def echo : Verifier Unit Text :=
  ⟨['k'], fun n => List.replicate n 'i', fun _ => ['0'], fun m s => m == s⟩

def post (n timestamp now : ℕ) : Call Unit Text :=
  let r : Request Unit := ⟨"POST".toList, List.replicate n 'p', timestamp, ['n'], ()⟩
  ⟨r, echo.message r, now⟩

end Sample

end Karma.RuntimeKey
