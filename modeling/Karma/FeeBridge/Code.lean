import Karma.Evm.Erc20
import Karma.Evm.Run
import Karma.Evm.Tx
import Karma.Evm.Word

/-! # `KarmaFeeBridge` — collecting and distributing the fee

The bridge quotes a fee in basis points of a settlement, pulls it from the core in the one token
that it is configured with, and sends it on at once in four shares. -/

namespace Karma.FeeBridge

open Evm Function

inductive Error
  | unauthorized
  | invalidAddress
  | invalidBps
  | invalidSplit
  | transferFailed
  | feeMismatch (expected got : ℕ)
  | overflow
  | underflow
  deriving DecidableEq, Repr

inductive Event
  | coreUpdated (core : Address)
  | tokenUpdated (token : Address)
  | feeBpsUpdated (feeBps : ℕ)
  | splitUpdated (treasuryShare verifierShare buybackShare developerShare : ℕ)
  | destinationsUpdated (treasury verifierPool buybackSink developerDestination : Address)
  | feeCollected (orderId : Bytes32) (buyer seller developer : Address) (amountUsdc feeUsdc : ℕ)
  deriving DecidableEq, Repr

inductive Move
  | pulled (token owner : Address) (amount : ℕ)
  | sent (token target : Address) (amount : ℕ)
  deriving DecidableEq, Repr

structure Deployment where
  self : Address
  admin : Address
  self_ne_zero : self ≠ 0
  admin_ne_zero : admin ≠ 0

structure Storage where
  core : Address := 0
  token : Address := 0
  feeBps : ℕ := 50
  treasuryShare : ℕ := 3
  verifierShare : ℕ := 3
  buybackShare : ℕ := 2
  developerShare : ℕ := 2
  treasury : Address := 0
  verifierPool : Address := 0
  buybackSink : Address := 0
  developerDestination : Address := 0
  totalFeesCollected : ℕ := 0
  totalGmvRecorded : ℕ := 0
  deriving DecidableEq

structure World extends Storage where
  tokens : Address → Erc20 Address
  moves : List Move
  credits : List (Address × ℕ)
  events : List Event

structure Init (w : World) : Prop where
  storage : w.toStorage = {}

abbrev M (α : Type) : Type := Tx Error World α

def emit (e : Event) : M Unit := Tx.modify fun w => { w with events := w.events ++ [e] }

def write (f : Storage → Storage) : M Unit :=
  Tx.modify fun w => { w with toStorage := f w.toStorage }

def bpsDenominator : ℕ := 10000

def maxFeeBps : ℕ := 1000

def World.callToken (w : World) (token sender : Address) (c : Erc20.Call Address) :
    Option (Erc20 Address) :=
  if token = 0 then none else (w.tokens token).run sender c

/-! ## Wiring -/

def onlyAdmin (D : Deployment) (sender : Address) : M Unit :=
  Tx.revertIf (sender ≠ D.admin) .unauthorized

section Wiring

variable (D : Deployment) (sender : Address)

def setCore (core : Address) : M Unit := do
  onlyAdmin D sender
  Tx.revertIf (core = 0) .invalidAddress
  write fun g => { g with core }
  emit (.coreUpdated core)

def setToken (token : Address) : M Unit := do
  onlyAdmin D sender
  Tx.revertIf (token = 0) .invalidAddress
  write fun g => { g with token }
  emit (.tokenUpdated token)

def setFeeBps (feeBps : ℕ) : M Unit := do
  onlyAdmin D sender
  Tx.revertIf (maxFeeBps < feeBps) .invalidBps
  write fun g => { g with feeBps }
  emit (.feeBpsUpdated feeBps)

def setSplit (treasury verifier buyback developer : ℕ) : M Unit := do
  onlyAdmin D sender
  let sum ← Tx.checkedAdd .overflow treasury verifier
  let sum ← Tx.checkedAdd .overflow sum buyback
  let sum ← Tx.checkedAdd .overflow sum developer
  Tx.revertIf (sum ≠ 10) .invalidSplit
  write fun g => { g with
    treasuryShare := treasury, verifierShare := verifier, buybackShare := buyback,
    developerShare := developer }
  emit (.splitUpdated treasury verifier buyback developer)

def setDestinations (treasury verifierPool buybackSink developer : Address) : M Unit := do
  onlyAdmin D sender
  Tx.revertIf (treasury = 0 ∨ verifierPool = 0 ∨ buybackSink = 0 ∨ developer = 0) .invalidAddress
  write fun g => { g with
    treasury, verifierPool, buybackSink, developerDestination := developer }
  emit (.destinationsUpdated treasury verifierPool buybackSink developer)

def rescueTokens (token target : Address) (amount : ℕ) : M Unit := do
  onlyAdmin D sender
  Tx.revertIf (token = 0 ∨ target = 0) .invalidAddress
  let w ← Tx.get
  let T ← Tx.ofOption .transferFailed (w.callToken token D.self (.transfer target amount))
  Tx.set { w with
    tokens := update w.tokens token T, moves := w.moves ++ [.sent token target amount] }

end Wiring

/-- The entry points that the code of the reward pool can reach, with their arguments. -/
inductive OpenCall
  | setCore (core : Address)
  | setToken (token : Address)
  | setFeeBps (feeBps : ℕ)
  | setSplit (treasury verifier buyback developer : ℕ)
  | setDestinations (treasury verifierPool buybackSink developer : Address)
  | rescueTokens (token target : Address) (amount : ℕ)
  deriving DecidableEq

def OpenCall.exec (D : Deployment) (sender : Address) : OpenCall → M Unit
  | .setCore core => FeeBridge.setCore D sender core
  | .setToken token => FeeBridge.setToken D sender token
  | .setFeeBps feeBps => FeeBridge.setFeeBps D sender feeBps
  | .setSplit treasury verifier buyback developer =>
    FeeBridge.setSplit D sender treasury verifier buyback developer
  | .setDestinations treasury verifierPool buybackSink developer =>
    FeeBridge.setDestinations D sender treasury verifierPool buybackSink developer
  | .rescueTokens token target amount => FeeBridge.rescueTokens D sender token target amount

inductive Outside
  | bridge (sender : Address) (c : OpenCall)
  | erc20 (sender token : Address) (c : Erc20.Call Address)

def Outside.sender : Outside → Address
  | .bridge sender _ | .erc20 sender _ _ => sender

def Outside.attempt (D : Deployment) (a : Outside) (w : World) : Option World :=
  if a.sender = D.self ∨ a.sender = 0 then none
  else
    match a with
    | .bridge sender c =>
      match (c.exec D sender w).result with
      | .ok (_, w') => some w'
      | .error _ => none
    | .erc20 sender token c =>
      (w.callToken token sender c).map fun T =>
        { w with tokens := update w.tokens token T }

def Outside.run (D : Deployment) (a : Outside) (w : World) : World := (a.attempt D w).getD w

/-- What the reward pool does when it is credited, and whether its call succeeds. -/
structure Credit where
  acts : List Outside := []
  answer : Option Unit := none

/-! ## Fee collection -/

def Storage.quoteFee (g : Storage) (_developer : Address) (amountUsdc : ℕ) : Option ℕ :=
  if amountUsdc * g.feeBps < 2 ^ 256 then some (amountUsdc * g.feeBps / bpsDenominator) else none

def transferOut (D : Deployment) (target : Address) (amount : ℕ) : M Unit := do
  Tx.revertIf (target = 0) .invalidAddress
  let w ← Tx.get
  let T ← Tx.ofOption .transferFailed (w.callToken w.token D.self (.transfer target amount))
  Tx.set { w with
    tokens := update w.tokens w.token T,
    moves := w.moves ++ [.sent w.token target amount] }

def payShare (D : Deployment) (target : Address) (amount : ℕ) : M Unit :=
  if 0 < amount then transferOut D target amount else pure ()

/-- Best effort, whatever the pool answers. -/
def creditVerifierRewards (D : Deployment) (credit : Credit) (pool : Address) (amount : ℕ) :
    M Unit := do
  Tx.modify fun w => { w with credits := w.credits ++ [(pool, amount)] }
  let _ ← Tx.callOut (Outside.run D) credit.acts credit.answer

def distribute (D : Deployment) (credit : Credit) (fee : ℕ) : M Unit := do
  let w ← Tx.get
  let sum ← Tx.checkedAdd .overflow w.treasuryShare w.verifierShare
  let sum ← Tx.checkedAdd .overflow sum w.buybackShare
  let totalParts ← Tx.checkedAdd .overflow sum w.developerShare
  if totalParts = 0 ∨ fee = 0 then pure ()
  else
    let treasuryParts ← Tx.checkedMul .overflow fee w.treasuryShare
    let treasuryAmt := treasuryParts / totalParts
    let verifierParts ← Tx.checkedMul .overflow fee w.verifierShare
    let verifierAmt := verifierParts / totalParts
    let buybackParts ← Tx.checkedMul .overflow fee w.buybackShare
    let buybackAmt := buybackParts / totalParts
    let rest ← Tx.checkedSub .underflow fee treasuryAmt
    let rest ← Tx.checkedSub .underflow rest verifierAmt
    let developerAmt ← Tx.checkedSub .underflow rest buybackAmt
    payShare D w.treasury treasuryAmt
    (if 0 < verifierAmt then do
      transferOut D w.verifierPool verifierAmt
      creditVerifierRewards D credit w.verifierPool verifierAmt
    else pure ())
    -- the pool had control: the other destinations are read after it
    let w ← Tx.get
    payShare D w.buybackSink buybackAmt
    payShare D w.developerDestination developerAmt

def recordFee (orderId : Bytes32) (buyer seller developer : Address) (amountUsdc feeUsdc : ℕ) :
    M Unit := do
  let w ← Tx.get
  let gmv ← Tx.checkedAdd .overflow w.totalGmvRecorded amountUsdc
  write fun g => { g with totalGmvRecorded := gmv }
  let fees ← Tx.checkedAdd .overflow w.totalFeesCollected feeUsdc
  write fun g => { g with totalFeesCollected := fees }
  emit (.feeCollected orderId buyer seller developer amountUsdc feeUsdc)

def collectAndRecord (D : Deployment) (credit : Credit) (sender : Address) (orderId : Bytes32)
    (buyer seller developer : Address) (amountUsdc feeUsdc : ℕ) : M Unit := do
  let w ← Tx.get
  Tx.revertIf (sender ≠ w.core) .unauthorized
  let scaled ← Tx.checkedMul .overflow amountUsdc w.feeBps
  let expected := scaled / bpsDenominator
  Tx.revertIf (feeUsdc ≠ expected) (.feeMismatch expected feeUsdc)
  (if 0 < feeUsdc then do
    let T ← Tx.ofOption .transferFailed
      (w.callToken w.token D.self (.transferFrom w.core D.self feeUsdc))
    Tx.set { w with
      tokens := update w.tokens w.token T,
      moves := w.moves ++ [.pulled w.token w.core feeUsdc] }
    distribute D credit feeUsdc
  else pure ())
  recordFee orderId buyer seller developer amountUsdc feeUsdc

/-! ## Transactions -/

/-- The actions of the system: somebody calls the bridge or a token, or collects a fee. -/
inductive Act
  | outside (o : Outside)
  | collectAndRecord (credit : Credit) (sender : Address) (orderId : Bytes32)
      (buyer seller developer : Address) (amountUsdc feeUsdc : ℕ)

def World.fresh (w : World) : World := { w with moves := [], credits := [], events := [] }

def step (D : Deployment) (w : World) : Act → Option World
  | .outside o => o.attempt D w.fresh
  | .collectAndRecord credit sender orderId buyer seller developer amountUsdc feeUsdc =>
    if sender = D.self ∨ sender = 0 then none
    else
      match (collectAndRecord D credit sender orderId buyer seller developer amountUsdc feeUsdc
        w.fresh).result with
      | .ok (_, w') => some w'
      | .error _ => none

abbrev History : Type := List (Entry World Act)

abbrev Reach (D : Deployment) : History → World → Prop := Run Init (step D)

end Karma.FeeBridge
