import Karma.Evm.Run
import Karma.Evm.Tx
import Karma.Evm.Word

/-! # `EmergencyFreeze` — timed freezes and the circuit breaker

An admin and an operator can freeze everything, an account, a bill or a binding, each for at most
seven days. -/

namespace Karma.EmergencyFreeze

open Evm Function

inductive Error
  | unauthorized
  | zeroAddress
  | freezeDurationInvalid (duration : ℕ)
  | freezeOperatorZero
  | overflow
  deriving DecidableEq, Repr

inductive Event
  | circuitBreakerUpdated (breaker : Address)
  | freezeOperatorUpdated (operator : Address)
  | globalFrozen (actor : Address) (time : ℕ) (reason : String)
  | globalUnfrozen (actor : Address)
  | agentFrozen (agent : Address) (time : ℕ) (reason : String)
  | agentUnfrozen (agent : Address)
  | billFrozen (billId time : ℕ) (reason : String)
  | billUnfrozen (billId : ℕ)
  | bindingFrozen (bindingId time : ℕ) (reason : String)
  | bindingUnfrozen (bindingId : ℕ)
  deriving DecidableEq, Repr

def maxFreezeDuration : ℕ := 604800

structure Deployment where
  self : Address
  admin : Address
  self_ne_zero : self ≠ 0
  admin_ne_zero : admin ≠ 0

structure Storage where
  freezeOperator : Address
  circuitBreaker : Address := 0
  globalFreezeUntil : ℕ := 0
  agentFreezeUntil : Address → ℕ := fun _ => 0
  billFreezeUntil : ℕ → ℕ := fun _ => 0
  bindingFreezeUntil : ℕ → ℕ := fun _ => 0

structure World extends Storage where
  now : ℕ
  events : List Event

structure Init (D : Deployment) (w : World) : Prop where
  storage : w.toStorage = { freezeOperator := D.admin }

abbrev M (α : Type) : Type := Tx Error World α

def emit (e : Event) : M Unit := Tx.modify fun w => { w with events := w.events ++ [e] }

def write (f : Storage → Storage) : M Unit :=
  Tx.modify fun w => { w with toStorage := f w.toStorage }

/-! ## Freezing -/

section Code

variable (D : Deployment) (sender : Address)

def onlyAdmin : M Unit := Tx.revertIf (sender ≠ D.admin) .unauthorized

def onlyFreezeAuthority : M Unit := do
  let w ← Tx.get
  Tx.revertIf (sender ≠ D.admin ∧ sender ≠ w.freezeOperator) .unauthorized

def setCircuitBreaker (breaker : Address) : M Unit := do
  onlyAdmin D sender
  write fun g => { g with circuitBreaker := breaker }
  emit (.circuitBreakerUpdated breaker)

def setFreezeOperator (operator : Address) : M Unit := do
  onlyAdmin D sender
  Tx.revertIf (operator = 0) .freezeOperatorZero
  write fun g => { g with freezeOperator := operator }
  emit (.freezeOperatorUpdated operator)

def freezeUntil (duration : ℕ) : M ℕ := do
  Tx.revertIf (duration = 0 ∨ maxFreezeDuration < duration) (.freezeDurationInvalid duration)
  let w ← Tx.get
  Tx.checkedAdd .overflow w.now duration

def freezeWith (duration : ℕ) (f : ℕ → Storage → Storage) (e : ℕ → Event) : M Unit := do
  let time ← freezeUntil duration
  write (f time)
  emit (e time)

def unfreezeWith (f : Storage → Storage) (e : Event) : M Unit := do
  onlyFreezeAuthority D sender
  write f
  emit e

def freezeGlobal (duration : ℕ) (reason : String) : M Unit := do
  onlyFreezeAuthority D sender
  freezeWith duration (fun time g => { g with globalFreezeUntil := time })
    fun time => .globalFrozen sender time reason

def unfreezeGlobal : M Unit :=
  unfreezeWith D sender (fun g => { g with globalFreezeUntil := 0 }) (.globalUnfrozen sender)

def freezeAgent (agent : Address) (duration : ℕ) (reason : String) : M Unit := do
  onlyFreezeAuthority D sender
  Tx.revertIf (agent = 0) .zeroAddress
  freezeWith duration
    (fun time g => { g with agentFreezeUntil := update g.agentFreezeUntil agent time })
    fun time => .agentFrozen agent time reason

def unfreezeAgent (agent : Address) : M Unit :=
  unfreezeWith D sender (fun g => { g with agentFreezeUntil := update g.agentFreezeUntil agent 0 })
    (.agentUnfrozen agent)

def freezeBill (billId duration : ℕ) (reason : String) : M Unit := do
  onlyFreezeAuthority D sender
  freezeWith duration
    (fun time g => { g with billFreezeUntil := update g.billFreezeUntil billId time })
    fun time => .billFrozen billId time reason

def unfreezeBill (billId : ℕ) : M Unit :=
  unfreezeWith D sender (fun g => { g with billFreezeUntil := update g.billFreezeUntil billId 0 })
    (.billUnfrozen billId)

def freezeBinding (bindingId duration : ℕ) (reason : String) : M Unit := do
  onlyFreezeAuthority D sender
  freezeWith duration (fun time g =>
      { g with bindingFreezeUntil := update g.bindingFreezeUntil bindingId time })
    fun time => .bindingFrozen bindingId time reason

def unfreezeBinding (bindingId : ℕ) : M Unit :=
  unfreezeWith D sender
    (fun g => { g with bindingFreezeUntil := update g.bindingFreezeUntil bindingId 0 })
    (.bindingUnfrozen bindingId)

end Code

/-! ## What the core asks -/

/-- The answers of the circuit breaker; `none` when its call fails. -/
structure Breaker where
  isGlobalPaused : Option Bool := some false
  isAgentPaused : Address → Option Bool := fun _ => some false

def untilActive (now time : ℕ) : Bool := decide (time ≠ 0 ∧ now < time)

namespace Storage

variable (g : Storage) (breaker : Breaker)

def breakerGlobalPaused : Option Bool :=
  if g.circuitBreaker = 0 then some false else breaker.isGlobalPaused

def breakerAgentPaused (agent : Address) : Option Bool :=
  if g.circuitBreaker = 0 ∨ agent = 0 then some false else breaker.isAgentPaused agent

def maxUint : ℕ := 2 ^ 256 - 1

def payoutBlocked (now bindingId buyerBillId agentBillId : ℕ) (buyerOwner agentOwner : Address) :
    Option (Bool × ℕ × ℕ) :=
  if untilActive now g.globalFreezeUntil then some (true, 1, g.globalFreezeUntil)
  else do
    let paused ← g.breakerGlobalPaused breaker
    if paused then some (true, 5, maxUint)
    else if bindingId ≠ 0 ∧ untilActive now (g.bindingFreezeUntil bindingId) then
      some (true, 4, g.bindingFreezeUntil bindingId)
    else if untilActive now (g.billFreezeUntil buyerBillId) then
      some (true, 3, g.billFreezeUntil buyerBillId)
    else if untilActive now (g.billFreezeUntil agentBillId) then
      some (true, 3, g.billFreezeUntil agentBillId)
    else if untilActive now (g.agentFreezeUntil buyerOwner) then
      some (true, 2, g.agentFreezeUntil buyerOwner)
    else if untilActive now (g.agentFreezeUntil agentOwner) then
      some (true, 2, g.agentFreezeUntil agentOwner)
    else
      -- the second account is asked about only if the first is not paused
      let paused ← g.breakerAgentPaused breaker buyerOwner
      let paused ← if paused then some true else g.breakerAgentPaused breaker agentOwner
      if paused then some (true, 5, maxUint) else some (false, 0, 0)

end Storage

/-! ## Transactions -/

inductive Call
  | setCircuitBreaker (breaker : Address)
  | setFreezeOperator (operator : Address)
  | freezeGlobal (duration : ℕ) (reason : String)
  | unfreezeGlobal
  | freezeAgent (agent : Address) (duration : ℕ) (reason : String)
  | unfreezeAgent (agent : Address)
  | freezeBill (billId duration : ℕ) (reason : String)
  | unfreezeBill (billId : ℕ)
  | freezeBinding (bindingId duration : ℕ) (reason : String)
  | unfreezeBinding (bindingId : ℕ)
  deriving DecidableEq

def Call.exec (D : Deployment) (sender : Address) : Call → M Unit
  | .setCircuitBreaker breaker => EmergencyFreeze.setCircuitBreaker D sender breaker
  | .setFreezeOperator operator => EmergencyFreeze.setFreezeOperator D sender operator
  | .freezeGlobal duration reason => EmergencyFreeze.freezeGlobal D sender duration reason
  | .unfreezeGlobal => EmergencyFreeze.unfreezeGlobal D sender
  | .freezeAgent agent duration reason => EmergencyFreeze.freezeAgent D sender agent duration reason
  | .unfreezeAgent agent => EmergencyFreeze.unfreezeAgent D sender agent
  | .freezeBill billId duration reason => EmergencyFreeze.freezeBill D sender billId duration reason
  | .unfreezeBill billId => EmergencyFreeze.unfreezeBill D sender billId
  | .freezeBinding bindingId duration reason =>
    EmergencyFreeze.freezeBinding D sender bindingId duration reason
  | .unfreezeBinding bindingId => EmergencyFreeze.unfreezeBinding D sender bindingId

inductive Act
  | tick (time : ℕ)
  | call (sender : Address) (c : Call)

def step (D : Deployment) (w : World) : Act → Option World
  | .tick time => if w.now ≤ time then some { w with now := time, events := [] } else none
  | .call sender c =>
    match (c.exec D sender { w with events := [] }).result with
    | .ok (_, w') => some w'
    | .error _ => none

abbrev Reach (D : Deployment) : List (Entry World Act) → World → Prop := Run (Init D) (step D)

/-! ## Freezes end -/

variable {D : Deployment} {h : List (Entry World Act)} {w : World} {sender : Address}
  {I : World → Prop} {E : Error → Prop} {Q : Unit → World → Prop}

@[simp] theorem wp_emit (e : Event) :
    (emit e).wp I E Q w ↔ Q () { w with events := w.events ++ [e] } := by
  simp [emit]

@[simp] theorem wp_write (f : Storage → Storage) :
    (write f).wp I E Q w ↔ Q () { w with toStorage := f w.toStorage } := by
  simp [write]

structure Storage.Until (g : Storage) (limit : ℕ) : Prop where
  global : g.globalFreezeUntil ≤ limit
  agent : ∀ a, g.agentFreezeUntil a ≤ limit
  bill : ∀ i, g.billFreezeUntil i ≤ limit
  binding : ∀ b, g.bindingFreezeUntil b ≤ limit

theorem Storage.Until.mono {g : Storage} {m n : ℕ} (h : g.Until m) (hle : m ≤ n) : g.Until n :=
  ⟨h.global.trans hle, fun a => (h.agent a).trans hle, fun i => (h.bill i).trans hle,
    fun b => (h.binding b).trans hle⟩

abbrev World.Limited (w : World) : Prop := w.Until (w.now + maxFreezeDuration)

theorem update_le {α : Type} [DecidableEq α] {f : α → ℕ} {a : α} {n m : ℕ} (h : ∀ x, f x ≤ m)
    (hn : n ≤ m) : ∀ x, update f a n x ≤ m :=
  (forall_update_iff f fun _ n => n ≤ m).mpr ⟨hn, fun x _ => h x⟩

theorem post_onlyFreezeAuthority {m : M Unit} (hm : m.post Q w) :
    (onlyFreezeAuthority D sender >>= fun _ => m).post Q w := by
  simp only [onlyFreezeAuthority, Tx.post_code]
  exact fun _ => hm

theorem post_freezeWith {duration : ℕ} {f : ℕ → Storage → Storage} {e : ℕ → Event}
    (hf : ∀ time, time ≤ w.now + maxFreezeDuration →
      (f time w.toStorage).Until (w.now + maxFreezeDuration)) :
    (freezeWith duration f e).post (fun _ => World.Limited) w := by
  simp only [freezeWith, freezeUntil, Tx.post_code, wp_write, wp_emit]
  refine fun hvalid _ => hf _ ?_
  omega

theorem post_unfreezeWith {f : Storage → Storage} {e : Event}
    (hf : (f w.toStorage).Until (w.now + maxFreezeDuration)) :
    (unfreezeWith D sender f e).post (fun _ => World.Limited) w := by
  refine post_onlyFreezeAuthority ?_
  simp only [Tx.post_code, wp_write, wp_emit]
  exact hf

theorem post_exec (hw : w.Limited) (c : Call) :
    (c.exec D sender).post (fun _ => World.Limited) w := by
  cases c with
  | setCircuitBreaker =>
    simp only [Call.exec, setCircuitBreaker, onlyAdmin, Tx.post_code, wp_write, wp_emit]
    exact fun _ => { hw with }
  | setFreezeOperator =>
    simp only [Call.exec, setFreezeOperator, onlyAdmin, Tx.post_code, wp_write, wp_emit]
    exact fun _ _ => { hw with }
  | freezeGlobal =>
    exact post_onlyFreezeAuthority (post_freezeWith fun _ htime => { hw with global := htime })
  | unfreezeGlobal => exact post_unfreezeWith { hw with global := Nat.zero_le _ }
  | freezeAgent =>
    refine post_onlyFreezeAuthority ?_
    simp only [Tx.post_code]
    exact fun _ => post_freezeWith fun _ htime => { hw with agent := update_le hw.agent htime }
  | unfreezeAgent =>
    exact post_unfreezeWith { hw with agent := update_le hw.agent (Nat.zero_le _) }
  | freezeBill =>
    refine post_onlyFreezeAuthority (post_freezeWith fun _ htime => ?_)
    exact { hw with bill := update_le hw.bill htime }
  | unfreezeBill => exact post_unfreezeWith { hw with bill := update_le hw.bill (Nat.zero_le _) }
  | freezeBinding =>
    refine post_onlyFreezeAuthority (post_freezeWith fun _ htime => ?_)
    exact { hw with binding := update_le hw.binding htime }
  | unfreezeBinding =>
    exact post_unfreezeWith { hw with binding := update_le hw.binding (Nat.zero_le _) }

theorem Reach.limited (hr : Reach D h w) : w.Limited := by
  refine hr.safe (fun w hinit => ?_) fun w a w' hw hstep => ?_
  · rw [World.Limited, hinit.storage]
    exact ⟨Nat.zero_le _, fun _ => Nat.zero_le _, fun _ => Nat.zero_le _, fun _ => Nat.zero_le _⟩
  · cases a with
    | tick time =>
      obtain ⟨htime, rfl⟩ := guarded_iff.mp hstep
      exact hw.mono (Nat.add_le_add_right htime _)
    | call sender c =>
      rw [step] at hstep
      split at hstep
      case h_1 u hr =>
        cases hstep
        exact Tx.wp_ok (post_exec (w := { w with events := [] }) hw c) hr
      case h_2 => cases hstep

/-- The same guard with every freeze lifted. -/
def Storage.thawed (g : Storage) : Storage where
  freezeOperator := g.freezeOperator
  circuitBreaker := g.circuitBreaker

/-- **Freezes end.** Seven days after its last step the guard answers as if nothing were frozen. -/
theorem freezes_end (hr : Reach D h w) {breaker : Breaker} {time b i j : ℕ}
    {buyer agent : Address} (htime : w.now + maxFreezeDuration ≤ time) :
    w.payoutBlocked breaker time b i j buyer agent =
      w.thawed.payoutBlocked breaker time b i j buyer agent := by
  have hlimit := hr.limited.mono htime
  have hover : ∀ {n}, n ≤ time → untilActive time n = false :=
    fun hn => decide_eq_false fun hactive => hn.not_gt hactive.2
  -- no branch of a freeze is taken, and the others only ask the breaker
  simp only [Storage.payoutBlocked, hover hlimit.global, hover (hlimit.agent _),
    hover (hlimit.bill _), hover (hlimit.binding _), Storage.thawed, hover (Nat.zero_le _),
    and_false, if_false, Bool.false_eq_true]
  rfl

theorem freezes_end_sample :
    let w := stateAfter (step ⟨.ofNat 50, .ofNat 51, by decide, by decide⟩)
      [.call (.ofNat 51) (.freezeGlobal 60 "")] ⟨{ freezeOperator := .ofNat 51 }, 0, []⟩
    w.globalFreezeUntil = 60 ∧
      w.payoutBlocked {} 604800 1 1 2 (.ofNat 3) (.ofNat 4) = some (false, 0, 0) :=
  ⟨by decide +kernel,
    (freezes_end (.stateAfter (.start ⟨rfl⟩)) (by decide +kernel)).trans (by decide +kernel)⟩

end Karma.EmergencyFreeze
