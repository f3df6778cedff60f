import Karma.Arith.Round

/-! # Votes on an arbitration case

`cast_vote` of `api/routes/arbitration.py` inserts the vote of an arbitrator, counts the votes of
the current round and, if there are enough, decides the case. -/

namespace Karma.Arbitration

open Karma.Arith

inductive Decision
  | buyerWins
  | sellerWins
  | partialDecision
  deriving DecidableEq

/-- `partial_percent`: the share of the escrow that goes to the seller. -/
abbrev Percent := {p : ℚ // 0 ≤ p ∧ p ≤ 100}

structure Vote (I : Type) where
  arbitrator : I
  decision : Decision
  partialPercent : Option Percent
  percent_iff : partialPercent.isSome ↔ decision = .partialDecision

structure Verdict where
  outcome : Decision
  percent : Option ℚ
  deriving DecidableEq

variable {I : Type}

def votesFor (d : Decision) (votes : List (Vote I)) : List (Vote I) :=
  votes.filter fun v => v.decision = d

def verdict (votes : List (Vote I)) : Verdict :=
  let buyerVotes := votesFor .buyerWins votes
  let sellerVotes := votesFor .sellerWins votes
  if sellerVotes.length < buyerVotes.length then ⟨.buyerWins, none⟩
  else if buyerVotes.length < sellerVotes.length then ⟨.sellerWins, none⟩
  else
    let partialValues := (votesFor .partialDecision votes).filterMap (·.partialPercent)
    ⟨.partialDecision, some <| if partialValues = [] then 50
      else roundTo 2 ((partialValues.map Subtype.val).sum / partialValues.length)⟩

def tally (required : ℕ) (votes : List (Vote I)) : Option Verdict :=
  if required ≤ votes.length then some (verdict votes) else none

/-! ## Who wins -/

def Decision.swap : Decision → Decision
  | .buyerWins => .sellerWins
  | .sellerWins => .buyerWins
  | .partialDecision => .partialDecision

def Percent.swap (p : Percent) : Percent := ⟨100 - p, by grind, by grind⟩

def Vote.swap (v : Vote I) : Vote I where
  arbitrator := v.arbitrator
  decision := v.decision.swap
  partialPercent := v.partialPercent.map Percent.swap
  percent_iff := by
    rw [Option.isSome_map, v.percent_iff]
    cases v.decision <;> simp [Decision.swap]

def Verdict.swap (v : Verdict) : Verdict := ⟨v.outcome.swap, v.percent.map (100 - ·)⟩

namespace Sample

def buyer (i : ℕ) : Vote ℕ := ⟨i, .buyerWins, none, by decide⟩

end Sample

open Sample

end Karma.Arbitration
