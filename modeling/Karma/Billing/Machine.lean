import Karma.Evm.Run
import Mathlib.Data.Finset.Insert

/-! # `karma_billing` — the billing state machine

A call holds the lock of its task from reading the state to writing it, so calls take effect one
after the other. -/

namespace Karma.Billing

open Evm Function

inductive BillingState
  | initiated
  | intentReceived
  | intentValidated
  | delegationAccepted
  | taskStarted
  | stepInProgress
  | stepCompleted
  | taskCompleted
  | bidEvaluating
  | bidAccepted
  | pipelineStaging
  | invoiceGenerated
  | paymentAuthorized
  | paymentPending
  | paymentSettling
  | refundPending
  | settled
  deriving DecidableEq

inductive ScenarioType
  | delegation
  | bidding
  | pipeline
  | multiDelegation
  | data
  | conditional
  | recurring
  | dispute
  | intent
  | crossChain

def billingStateTransitions : BillingState → List BillingState
  | .initiated => [.intentReceived]
  | .intentReceived => [.intentValidated]
  | .intentValidated => [.delegationAccepted, .bidEvaluating, .pipelineStaging]
  | .delegationAccepted => [.taskStarted]
  | .taskStarted => [.stepInProgress, .taskCompleted]
  | .stepInProgress => [.stepCompleted, .taskCompleted]
  | .stepCompleted => [.stepInProgress, .taskCompleted]
  | .taskCompleted => [.invoiceGenerated]
  | .bidEvaluating => [.bidAccepted, .invoiceGenerated]
  | .bidAccepted => [.taskStarted]
  | .pipelineStaging => [.taskStarted, .stepInProgress, .taskCompleted]
  | .invoiceGenerated => [.paymentAuthorized, .paymentSettling]
  | .paymentAuthorized => [.paymentPending, .paymentSettling]
  | .paymentPending => [.paymentSettling]
  | .paymentSettling => [.settled, .refundPending]
  | .refundPending => [.settled]
  | .settled => []

def directPath : List BillingState :=
  [.initiated, .intentReceived, .intentValidated, .delegationAccepted, .taskStarted, .taskCompleted,
    .invoiceGenerated, .paymentAuthorized, .paymentSettling, .settled]

def allowedStatePaths : ScenarioType → List (List BillingState)
  | .delegation =>
    [[.initiated, .intentReceived, .intentValidated, .delegationAccepted, .taskStarted,
        .stepInProgress, .stepCompleted, .taskCompleted, .invoiceGenerated, .paymentAuthorized,
        .paymentPending, .paymentSettling, .settled],
      [.stepCompleted, .stepInProgress], [.stepInProgress, .taskCompleted],
      [.stepCompleted, .taskCompleted], [.paymentAuthorized, .paymentSettling]]
  | .bidding =>
    [[.initiated, .intentReceived, .intentValidated, .bidEvaluating, .bidAccepted, .taskStarted,
        .stepInProgress, .stepCompleted, .taskCompleted, .invoiceGenerated, .paymentAuthorized,
        .paymentSettling, .settled],
      [.initiated, .intentReceived, .intentValidated, .bidEvaluating, .invoiceGenerated,
        .paymentSettling, .settled]]
  | .pipeline =>
    [[.initiated, .intentReceived, .intentValidated, .pipelineStaging, .stepInProgress,
      .stepCompleted, .taskCompleted, .invoiceGenerated, .paymentAuthorized, .paymentSettling,
      .settled]]
  | .multiDelegation =>
    [[.initiated, .intentReceived, .intentValidated, .delegationAccepted, .taskStarted,
      .stepInProgress, .stepCompleted, .taskCompleted, .invoiceGenerated, .paymentAuthorized,
      .paymentSettling, .settled]]
  | .dispute => [directPath, [.paymentSettling, .refundPending, .settled]]
  | .data | .conditional | .recurring | .intent | .crossChain => [directPath]

def isTransitionAllowed (scenario : ScenarioType) (source target : BillingState) : Bool :=
  target ∈ billingStateTransitions source && (allowedStatePaths scenario).any fun path =>
      match path.idxOf? source with
      | some idx => path[idx + 1]? = some target
      | none => false

variable {Task Receipt Did : Type} [DecidableEq Task] [DecidableEq Receipt]

structure TransitionRecord (Task Receipt Did : Type) where
  task : Task
  source : BillingState
  target : BillingState
  receipt : Receipt
  did : Did

structure Machine (Task Receipt Did : Type) where
  states : Task → Option BillingState := fun _ => none
  scenarios : Task → Option ScenarioType := fun _ => none
  receipts : Task → Finset Receipt := fun _ => ∅
  log : List (TransitionRecord Task Receipt Did) := []

/-- The arguments of `execute_transition`. -/
structure Call (Task Receipt Did : Type) where
  task : Task
  scenario : ScenarioType
  target : BillingState
  receipt : Receipt
  did : Did

namespace Machine

variable (m : Machine Task Receipt Did)

def current (t : Task) : BillingState := (m.states t).getD .initiated

def validateTransition (c : Call Task Receipt Did) : Bool :=
  c.target ∈ billingStateTransitions (m.current c.task) &&
    isTransitionAllowed c.scenario (m.current c.task) c.target && c.receipt ∈ m.receipts c.task

/-- The first call for a task writes its state and scenario, before anything is validated. -/
def enter (c : Call Task Receipt Did) : Machine Task Receipt Did :=
  match m.states c.task with
  | some _ => m
  | none => { m with
      states := update m.states c.task (some .initiated)
      scenarios := update m.scenarios c.task (some c.scenario) }

def executeTransition (c : Call Task Receipt Did) : Machine Task Receipt Did :=
  let m' := m.enter c
  if m.validateTransition c then
    { m' with
      states := update m'.states c.task (some c.target)
      log := ⟨c.task, m.current c.task, c.target, c.receipt, c.did⟩ :: m'.log }
  else m'

def registerReceipt (t : Task) (r : Receipt) : Machine Task Receipt Did :=
  { m with receipts := update m.receipts t (insert r (m.receipts t)) }

end Machine

inductive Act (Task Receipt Did : Type)
  | execute (c : Call Task Receipt Did)
  | register (t : Task) (r : Receipt)

def Machine.step (m : Machine Task Receipt Did) :
    Act Task Receipt Did → Option (Machine Task Receipt Did)
  | .execute c => some (m.executeTransition c)
  | .register t r => some (m.registerReceipt t r)

/-! ## Histories -/

def Chain : List (TransitionRecord Task Receipt Did) → Option BillingState → Prop
  | [], s => ∀ state ∈ s, state = .initiated
  | r :: older, s => s = some r.target ∧ Chain older (some r.source)

structure Machine.OnPath (m : Machine Task Receipt Did) : Prop where
  chain : ∀ t, Chain (m.log.filter (·.task = t)) (m.states t)
  scenario : ∀ r ∈ m.log, ∃ s ∈ m.scenarios r.task, isTransitionAllowed s r.source r.target
  receipt : ∀ r ∈ m.log, r.receipt ∈ m.receipts r.task
  final : ∀ r ∈ m.log, r.source ≠ .settled

abbrev Step (Task Receipt Did : Type) := Entry (Machine Task Receipt Did) (Act Task Receipt Did)

def Raises (e : Step Task Receipt Did) : Prop :=
  ∃ c, e.act = .execute c ∧ e.pre.validateTransition c = false

def Unchanged (e : Step Task Receipt Did) : Prop :=
  e.post.states = e.pre.states ∧ e.post.scenarios = e.pre.scenarios ∧ e.post.log = e.pre.log

/-- The call names a scenario that agrees with the registered one on this transition, and if it
raises it is not the first for its task. -/
def Faithful (e : Step Task Receipt Did) : Prop :=
  ∀ c, e.act = .execute c → if e.pre.validateTransition c then
      ∃ s ∈ e.post.scenarios c.task, isTransitionAllowed s (e.pre.current c.task) c.target
    else e.pre.states c.task ≠ none

variable {m m' : Machine Task Receipt Did} {c : Call Task Receipt Did}

namespace Machine

section Enter

omit [DecidableEq Receipt]

theorem enter_log : (m.enter c).log = m.log := by
  unfold enter
  split <;> rfl

theorem enter_receipts : (m.enter c).receipts = m.receipts := by
  unfold enter
  split <;> rfl

theorem enter_states : (m.enter c).states = update m.states c.task (some (m.current c.task)) := by
  unfold enter current
  split
  next s hs => rw [hs, Option.getD_some, ← hs, update_eq_self]
  next hnone => rw [hnone, Option.getD_none]

theorem OnPath.no_record (hp : m.OnPath) {t : Task} (ht : m.states t = none) :
    ∀ r ∈ m.log, r.task ≠ t := by
  intro r hr hrt
  have hchain := hp.chain t
  have hmem : r ∈ m.log.filter (·.task = t) := by simp [hr, hrt]
  rw [ht] at hchain
  cases hl : m.log.filter (·.task = t) with
  | nil => simp [hl] at hmem
  | cons r' older =>
    rw [hl] at hchain
    cases hchain.1

theorem OnPath.scenario_enter (hp : m.OnPath) :
    ∀ r ∈ m.log, ∃ s ∈ (m.enter c).scenarios r.task, isTransitionAllowed s r.source r.target := by
  intro r hr
  unfold enter
  split
  · exact hp.scenario r hr
  next hnone =>
    dsimp only
    rw [update_of_ne (hp.no_record hnone r hr)]
    exact hp.scenario r hr

theorem OnPath.chain_current (hp : m.OnPath) (t : Task) :
    Chain (m.log.filter (·.task = t)) (some (m.current t)) := by
  have hchain := hp.chain t
  unfold current
  cases hs : m.states t with
  | some s => rwa [hs] at hchain
  | none =>
    have hnil : m.log.filter (·.task = t) = [] := by
      simpa [List.filter_eq_nil_iff] using hp.no_record hs
    rw [hnil]
    rintro _ ⟨⟩
    rfl

theorem OnPath.enter (hp : m.OnPath) : (m.enter c).OnPath where
  chain := by
    rw [enter_log, enter_states]
    exact (forall_update_iff m.states fun t s => Chain (m.log.filter (·.task = t)) s).mpr
      ⟨hp.chain_current c.task, fun t _ => hp.chain t⟩
  scenario := by
    rw [enter_log]
    exact hp.scenario_enter
  receipt := by
    rw [enter_log, enter_receipts]
    exact hp.receipt
  final := by
    rw [enter_log]
    exact hp.final

end Enter

theorem OnPath.register (hp : m.OnPath) (t : Task) (r : Receipt) : (m.registerReceipt t r).OnPath :=
  ⟨hp.chain, hp.scenario, fun q hq => by
    rcases eq_or_ne q.task t with heq | hne
    · simp [registerReceipt, heq, heq ▸ hp.receipt q hq]
    · simpa [registerReceipt, hne] using hp.receipt q hq, hp.final⟩

theorem settled_final {t : BillingState} : t ∉ billingStateTransitions .settled := by
  simp [billingStateTransitions]

theorem OnPath.execute_iff (hp : m.OnPath) (hv : m.validateTransition c = true) :
    (m.executeTransition c).OnPath ↔ ∃ s ∈ (m.executeTransition c).scenarios c.task,
      isTransitionAllowed s (m.current c.task) c.target := by
  simp only [executeTransition, if_pos hv, enter_log, enter_states, enter_receipts, update_idem]
  refine ⟨fun h => h.scenario _ (.head _), fun hs => ⟨fun t => ?_, ?_, ?_, ?_⟩⟩
  · rcases eq_or_ne t c.task with rfl | hne
    · simp [Chain, hp.chain_current]
    · simpa [update_of_ne hne, hne.symm] using hp.chain t
  · exact List.forall_mem_cons.mpr ⟨hs, hp.scenario_enter⟩
  · rw [validateTransition, Bool.and_eq_true] at hv
    exact List.forall_mem_cons.mpr ⟨of_decide_eq_true hv.2, hp.receipt⟩
  · refine List.forall_mem_cons.mpr ⟨fun hfinal => ?_, hp.final⟩
    rw [validateTransition, Bool.and_eq_true, Bool.and_eq_true, decide_eq_true_iff] at hv
    rw [show m.current c.task = .settled from hfinal] at hv
    exact settled_final hv.1.1

end Machine

theorem unchanged_iff (hv : m.validateTransition c = false) :
    Unchanged ⟨m, .execute c, m.executeTransition c⟩ ↔ m.states c.task ≠ none := by
  simp only [Unchanged, Machine.executeTransition, hv, Bool.false_eq_true, if_false]
  refine ⟨fun h hnone => ?_, fun hs => ?_⟩
  · have hstate := congrFun h.1 c.task
    rw [Machine.enter_states, update_self, hnone] at hstate
    cases hstate
  · obtain ⟨s, hs⟩ := Option.ne_none_iff_exists'.mp hs
    simp [Machine.enter, hs]

variable {h : List (Step Task Receipt Did)}

/-- **Billing histories stay on their scenarios, and calls that raise change nothing,** if and only
if every call is faithful to the scenario of its task. -/
theorem billing_on_path_iff (hr : Run (· = {}) Machine.step h m) :
    (Throughout (fun _ m => m.OnPath) h m ∧ ∀ e ∈ h, Raises e → Unchanged e) ↔
      ∀ e ∈ h, Faithful e := by
  have hpath : Throughout (fun _ m => m.OnPath) h m ↔ ∀ e ∈ h, ∀ c, e.act = .execute c →
      e.pre.validateTransition c = true → ∃ s ∈ e.post.scenarios c.task,
        isTransitionAllowed s (e.pre.current c.task) c.target := by
    refine hr.throughout_iff_sound (J := Machine.OnPath) ?_ ?_ (fun _ hp => hp) ?_
    · rintro _ rfl
      exact ⟨fun _ => by simp [Chain], by simp, by simp, by simp⟩
    · rintro m (c | ⟨t, r⟩) m' hp ⟨⟩ hs
      · cases hv : m.validateTransition c with
        | true => exact (hp.execute_iff hv).mpr (hs c rfl hv)
        | false =>
          rw [Machine.executeTransition, hv]
          exact hp.enter
      · exact hp.register t r
    · rintro m _ m' hp hstep hp' c rfl hv
      cases hstep
      exact (hp.execute_iff hv).mp hp'
  rw [hpath, ← forall₂_and]
  refine forall₂_congr fun e he => ?_
  obtain ⟨-, -, hs⟩ := hr.of_mem he
  obtain ⟨pre, act, post⟩ := e
  cases act with
  | register t r => simp [Raises, Faithful]
  | execute c =>
    obtain rfl : pre.executeTransition c = post := Option.some.inj hs
    have hu := unchanged_iff (m := pre) (c := c)
    cases hv : pre.validateTransition c with
    | true => simp [Raises, Faithful, hv]
    | false => simp [Raises, Faithful, hv, hu hv]

namespace Sample

abbrev Small := Machine Bool Bool Unit

def call (scenario : ScenarioType) (target : BillingState) : Act Bool Bool Unit :=
  .execute ⟨true, scenario, target, true, ()⟩

def mixed : List (Act Bool Bool Unit) :=
  [.register true true, call .delegation .intentReceived, call .delegation .intentValidated,
    call .bidding .bidEvaluating]

def machineAfter (as : List (Act Bool Bool Unit)) : Small := stateAfter Machine.step as {}

theorem mixed_off_path : ¬ (machineAfter mixed).OnPath := by
  intro hp
  have hlog : (⟨true, .intentValidated, .bidEvaluating, true, ()⟩ : TransitionRecord _ _ _) ∈
    (machineAfter mixed).log := .head _
  obtain ⟨s, hs, hallowed⟩ := hp.scenario _ hlog
  obtain rfl : ScenarioType.delegation = s := Option.some.inj hs
  exact absurd hallowed (by decide)

end Sample

open Sample

theorem mixed_not_faithful : ¬ ∀ e ∈ record Machine.step mixed ({} : Small) [], Faithful e :=
  fun hf => mixed_off_path ((billing_on_path_iff (.stateAfter (.start rfl))).mpr hf).1.last

/-- A delegation is billed as a task for which bids were taken. -/
theorem scenario_switched : ∃ h m, Run (· = ({} : Small)) Machine.step h m ∧
    m.scenarios true = some .delegation ∧ m.states true = some .bidEvaluating ∧ ¬ m.OnPath :=
  ⟨_, _, .stateAfter (.start rfl), rfl, rfl, mixed_off_path⟩

end Karma.Billing
