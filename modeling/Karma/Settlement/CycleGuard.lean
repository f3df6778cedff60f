import Karma.Evm.Run
import Karma.Settlement.Status
import Mathlib.Logic.Relation

/-! # `settlement_cycle_guard` — the graph of active payments

A settlement with a worker that is neither settled, refunded nor cancelled is an edge from its
client to its worker. -/

namespace Karma.Settlement.CycleGuard

open Evm Relation

variable {ι τ : Type} {edges edges' : List (ι × ι)}

/-! ## Paths -/

abbrev Edge (edges : List (ι × ι)) (a b : ι) : Prop := (a, b) ∈ edges

def Acyclic (edges : List (ι × ι)) : Prop := ∀ a, ¬ TransGen (Edge edges) a a

theorem Acyclic.mono (h : Acyclic edges) (hsub : edges' ⊆ edges) : Acyclic edges' :=
  fun a hp => h a (TransGen.mono (fun _ _ he => hsub he) _ _ hp)

/-- A path along one more edge is an old one, or leads to the new edge and on from it. -/
theorem transGen_insert {c w a b : ι} (hsub : ∀ e ∈ edges', e ∈ edges ∨ e = (c, w))
    (hp : TransGen (Edge edges') a b) : TransGen (Edge edges) a b ∨
      ReflTransGen (Edge edges) a c ∧ ReflTransGen (Edge edges) w b := by
  have hnew : ∀ {x y}, Edge edges' x y → Edge edges x y ∨ x = c ∧ y = w := fun he =>
    (hsub _ he).imp_right Prod.mk.inj
  induction hp with
  | single he =>
    rcases hnew he with he | ⟨rfl, rfl⟩
    · exact .inl (.single he)
    · exact .inr ⟨.refl, .refl⟩
  | tail _ he ih =>
    rcases hnew he with he | ⟨rfl, rfl⟩
    · exact ih.imp (·.tail he) fun h => ⟨h.1, h.2.tail he⟩
    · exact .inr ⟨ih.elim TransGen.to_reflTransGen And.left, .refl⟩

theorem Acyclic.insert {c w : ι} (h : Acyclic edges)
    (hsub : ∀ e ∈ edges', e ∈ edges ∨ e = (c, w)) (hw : ¬ ReflTransGen (Edge edges) w c) :
    Acyclic edges' := fun a hp =>
  (transGen_insert hsub hp).elim (h a) fun hc => hw (hc.2.trans hc.1)

/-! ## The search -/

section Search

variable [DecidableEq ι]

/-- The workers of the client `n`, as they come to lie on the stack. -/
def targets (edges : List (ι × ι)) (n : ι) : List ι :=
  ((edges.filter (·.1 = n)).map Prod.snd).reverse

/-- The `while` loop, with the top of the stack first; `none` when the fuel is used up. -/
def search (edges : List (ι × ι)) (buyer : ι) : ℕ → List ι → List ι → Option Bool
  | 0, _, _ => none
  | _ + 1, [], _ => some false
  | fuel + 1, n :: stack, seen =>
    if n = buyer then some true
    else if n ∈ seen then search edges buyer fuel stack seen
    else search edges buyer fuel (targets edges n ++ stack) (n :: seen)

def workerReachesBuyerOnEdges (edges : List (ι × ι)) (worker buyer : ι) : Option Bool :=
  if worker = buyer then some false else search edges buyer (edges.length + 2) [worker] []

def unseen (edges : List (ι × ι)) (seen : List ι) : List (ι × ι) := edges.filter (·.1 ∉ seen)

theorem mem_targets {n m : ι} : m ∈ targets edges n ↔ Edge edges n m := by
  simp [targets]

theorem length_unseen (edges : List (ι × ι)) {n : ι} {seen : List ι} (hn : n ∉ seen) :
    (targets edges n).length + (unseen edges (n :: seen)).length = (unseen edges seen).length := by
  rw [targets, List.length_reverse, List.length_map, unseen, unseen]
  induction edges with
  | nil => rfl
  | cons e edges ih => by_cases he : e.1 = n <;> by_cases hs : e.1 ∈ seen <;> grind

omit [DecidableEq ι] in
/-- A path out of the seen agents passes the stack. -/
theorem exists_stack {a b : ι} {stack seen : List ι}
    (hclosed : ∀ x ∈ seen, ∀ y, Edge edges x y → y ∈ seen ∨ y ∈ stack)
    (hp : ReflTransGen (Edge edges) a b) (ha : a ∈ seen) (hb : b ∉ seen) :
    ∃ m ∈ stack, ReflTransGen (Edge edges) m b := by
  induction hp using ReflTransGen.head_induction_on with
  | refl => exact absurd ha hb
  | head he hp ih =>
    rcases hclosed _ ha _ he with hy | hy
    · exact ih hy
    · exact ⟨_, hy, hp⟩

/-- **The loop ends, and finds the paths from the stack.** Every turn takes one agent from the
stack, and puts each edge on it at most once. -/
theorem search_spec {buyer : ι} {fuel : ℕ} {stack seen : List ι}
    (hfuel : stack.length + (unseen edges seen).length < fuel) (hbuyer : buyer ∉ seen)
    (hclosed : ∀ x ∈ seen, ∀ y, Edge edges x y → y ∈ seen ∨ y ∈ stack) :
    ∃ r, search edges buyer fuel stack seen = some r ∧
      (r = true ↔ ∃ m ∈ stack, ReflTransGen (Edge edges) m buyer) := by
  induction fuel generalizing stack seen with
  | zero => exact absurd hfuel (Nat.not_lt_zero _)
  | succ fuel ih =>
    cases stack with
    | nil => exact ⟨false, rfl, by simp⟩
    | cons n stack =>
      rw [List.length_cons] at hfuel
      rw [search]
      split
      next hn => exact ⟨true, rfl, by simp [hn, ReflTransGen.refl]⟩
      next hn =>
        split
        next hseen =>
          have hclosed' : ∀ x ∈ seen, ∀ y, Edge edges x y → y ∈ seen ∨ y ∈ stack := by
            intro x hx y he
            rcases hclosed x hx y he with hy | hy
            · exact .inl hy
            · rcases List.mem_cons.mp hy with rfl | hy
              · exact .inl hseen
              · exact .inr hy
          obtain ⟨r, hr, hiff⟩ := ih (by omega) hbuyer hclosed'
          refine ⟨r, hr, hiff.trans ⟨fun ⟨m, hm, hp⟩ => ⟨m, List.mem_cons_of_mem _ hm, hp⟩, ?_⟩⟩
          rintro ⟨m, hm, hp⟩
          rcases List.mem_cons.mp hm with rfl | hm
          · exact exists_stack hclosed' hp hseen hbuyer
          · exact ⟨m, hm, hp⟩
        next hseen =>
          have hlength := length_unseen edges hseen
          obtain ⟨r, hr, hiff⟩ := @ih (targets edges n ++ stack) (n :: seen)
            (by rw [List.length_append]; omega)
            (by simpa [hbuyer] using Ne.symm hn) (by
              intro x hx y he
              rw [List.mem_append, mem_targets, List.mem_cons]
              rcases List.mem_cons.mp hx with rfl | hx
              · exact .inr (.inl he)
              · have hy := hclosed x hx y he
                rw [List.mem_cons] at hy
                tauto)
          refine ⟨r, hr, hiff.trans ?_⟩
          simp only [List.mem_append, mem_targets, List.mem_cons, or_and_right, exists_or,
            exists_eq_left]
          refine or_congr_left ⟨fun ⟨m, he, hp⟩ => .head he hp, fun hp => ?_⟩
          rcases hp.cases_head with heq | hp
          · exact absurd heq hn
          · exact hp

theorem workerReachesBuyerOnEdges_spec (edges : List (ι × ι)) (worker buyer : ι) :
    ∃ r, workerReachesBuyerOnEdges edges worker buyer = some r ∧
      (r = true ↔ worker ≠ buyer ∧ ReflTransGen (Edge edges) worker buyer) := by
  rw [workerReachesBuyerOnEdges]
  split
  next h => exact ⟨false, rfl, by simp [h]⟩
  next h =>
    have hlength : (unseen edges []).length ≤ edges.length := List.length_filter_le _ _
    obtain ⟨r, hr, hiff⟩ := @search_spec ι edges _ buyer (edges.length + 2) [worker] []
      (by rw [List.length_singleton]; omega)
      (by simp) (by simp)
    exact ⟨r, hr, by simpa [h] using hiff⟩

theorem not_reaches {worker buyer : ι} (hne : worker ≠ buyer)
    (h : workerReachesBuyerOnEdges edges worker buyer = some false) :
    ¬ ReflTransGen (Edge edges) worker buyer := by
  obtain ⟨r, hr, hiff⟩ := workerReachesBuyerOnEdges_spec edges worker buyer
  obtain rfl : false = r := Option.some.inj (h.symm.trans hr)
  exact fun hp => Bool.false_ne_true (hiff.mpr ⟨hne, hp⟩)

end Search

/-! ## Settlements -/

structure SettlementModel (τ ι : Type) where
  taskId : τ
  client : ι
  worker : Option ι
  status : TaskStatus

abbrev Table (τ ι : Type) := List (SettlementModel τ ι)

/-- `_terminal_status_strings`. -/
def terminal : List TaskStatus := [.settled, .refunded, .cancelled]

def SettlementModel.edge (r : SettlementModel τ ι) : Option (ι × ι) :=
  if r.status ∈ terminal then none else r.worker.map (r.client, ·)

def activeEdges (s : Table τ ι) : List (ι × ι) := s.filterMap SettlementModel.edge

variable [DecidableEq τ] [DecidableEq ι]

/-- What the guard selects for the task `t`. -/
def otherEdges (s : Table τ ι) (t : τ) : List (ι × ι) :=
  activeEdges (s.filter (·.taskId ≠ t))

/-- Requests; the route `/lock` and the trade pipeline refuse the buyer as its own worker
(`checked`), the fulfilment of an intent does not. -/
inductive Act (τ ι : Type)
  | create (task : τ) (client : ι)
  | lock (task : τ) (worker : ι) (checked : Bool)
  | transition (task : τ) (target : TaskStatus)

def Table.find (s : Table τ ι) (t : τ) : Option (SettlementModel τ ι) := s.find? (·.taskId = t)

def Table.put (s : Table τ ι) (r' : SettlementModel τ ι) : Table τ ι :=
  s.map fun r => if r.taskId = r'.taskId then r' else r

def step (s : Table τ ι) : Act τ ι → Option (Table τ ι)
  | .create t client =>
    if (s.find t).isNone then some (⟨t, client, none, .draft⟩ :: s) else none
  | .lock t worker checked =>
    (s.find t).bind fun r =>
      if (checked → worker ≠ r.client) ∧ r.status.canTransition .accepted ∧
          workerReachesBuyerOnEdges (otherEdges s t) worker r.client = some false then
        some (s.put { r with worker := some worker, status := .accepted })
      else none
  | .transition t target =>
    (s.find t).bind fun r =>
      if r.status.canTransition target then some (s.put { r with status := target })
      else none

/-- **What the guard does not see**: no client is its own worker, and a settlement leaves a terminal
status only while no path leads from its worker to its client. -/
def guarded (s : Table τ ι) : Act τ ι → Bool
  | .create _ _ => true
  | .lock t worker _ => (s.find t).all (worker ≠ ·.client)
  | .transition t _ => (s.find t).all fun r => r.status ∉ terminal || r.worker.all fun w =>
    w ≠ r.client && workerReachesBuyerOnEdges (activeEdges s) w r.client = some false

variable {s s' : Table τ ι} {t : τ} {r r' : SettlementModel τ ι}

omit [DecidableEq ι] in
theorem otherEdges_subset : otherEdges s t ⊆ activeEdges s :=
  (List.filter_sublist.filterMap _).subset

omit [DecidableEq ι] in
theorem find_spec (h : s.find t = some r) : r ∈ s ∧ r.taskId = t :=
  ⟨List.mem_of_find?_eq_some h, by simpa using List.find?_some h⟩

omit [DecidableEq ι] in
theorem mem_activeEdges_put {e : ι × ι} (h : e ∈ activeEdges (s.put r')) :
    e ∈ otherEdges s r'.taskId ∨ r'.edge = some e := by
  obtain ⟨_, hx, he⟩ := List.mem_filterMap.mp h
  obtain ⟨x, hxs, rfl⟩ := List.mem_map.mp hx
  split at he
  next => exact .inr he
  next hne => exact .inl (List.mem_filterMap.mpr ⟨x, by simp [hxs, hne], he⟩)

omit [DecidableEq τ] [DecidableEq ι] in
theorem edge_eq_some {e : ι × ι} :
    r.edge = some e ↔ r.status ∉ terminal ∧ r.worker = some e.2 ∧ r.client = e.1 := by
  obtain ⟨c, w⟩ := e
  simp [SettlementModel.edge, and_comm]

omit [DecidableEq ι] in
theorem acyclic_put (h : Acyclic (activeEdges s))
    (hnew : ∀ e, r'.edge = some e → e ∈ activeEdges s ∨
      ¬ ReflTransGen (Edge (otherEdges s r'.taskId)) e.2 e.1) :
    Acyclic (activeEdges (s.put r')) := by
  cases hr : r'.edge with
  | none =>
    refine h.mono fun e he => ?_
    rcases mem_activeEdges_put he with ho | he
    · exact otherEdges_subset ho
    · rw [hr] at he
      cases he
  | some d =>
    have hmem : ∀ e ∈ activeEdges (s.put r'), e ∈ otherEdges s r'.taskId ∨ e = d :=
      fun e he => (mem_activeEdges_put he).imp_right fun he => Option.some.inj (he.symm.trans hr)
    rcases hnew d hr with hold | hpath
    · refine h.mono fun e he => ?_
      rcases hmem e he with ho | rfl
      · exact otherEdges_subset ho
      · exact hold
    · exact (h.mono otherEdges_subset).insert hmem hpath

theorem acyclic_step {a : Act τ ι} (h : Acyclic (activeEdges s)) (hg : guarded s a = true)
    (hs : step s a = some s') : Acyclic (activeEdges s') := by
  cases a with
  | create t client =>
    obtain ⟨-, rfl⟩ := guarded_iff.mp hs
    simpa [activeEdges, SettlementModel.edge] using h
  | lock t worker checked =>
    obtain ⟨r, hr, hs⟩ := Option.bind_eq_some_iff.mp hs
    obtain ⟨⟨-, -, hsearch⟩, rfl⟩ := guarded_iff.mp hs
    have hne : worker ≠ r.client := by simpa [guarded, hr] using hg
    obtain ⟨-, rfl⟩ := find_spec hr
    refine acyclic_put h fun e he => .inr ?_
    obtain ⟨-, hw, hc⟩ := edge_eq_some.mp he
    obtain rfl : worker = e.2 := Option.some.inj hw
    exact hc ▸ not_reaches hne hsearch
  | transition t target =>
    obtain ⟨r, hr, hs⟩ := Option.bind_eq_some_iff.mp hs
    obtain ⟨-, rfl⟩ := guarded_iff.mp hs
    obtain ⟨hmem, rfl⟩ := find_spec hr
    refine acyclic_put h fun e he => ?_
    obtain ⟨-, (hw : r.worker = some e.2), hc⟩ := edge_eq_some.mp he
    by_cases hterm : r.status ∈ terminal
    · obtain ⟨hne, hsearch⟩ : e.2 ≠ r.client ∧
          workerReachesBuyerOnEdges (activeEdges s) e.2 r.client = some false := by
        simpa [guarded, hr, hterm, hw] using hg
      rw [hc] at hsearch hne
      refine .inr fun hp => not_reaches hne hsearch ?_
      exact ReflTransGen.mono (fun _ _ he => otherEdges_subset he) _ _ hp
    · -- The edge was active before.
      exact .inl (List.mem_filterMap.mpr ⟨r, hmem, edge_eq_some.mpr ⟨hterm, hw, hc⟩⟩)

/-- **The active graph has no cycle as long as the guard sees every edge that comes in, and the
search is right for two different agents.** -/
theorem payment_graph_acyclic {h : List (Entry (Table τ ι) (Act τ ι))}
    (hr : Run (· = []) step h s) (hg : ∀ e ∈ h, guarded e.pre e.act = true) :
    Throughout (fun _ s => Acyclic (activeEdges s)) h s ∧
      ∀ (edges : List (ι × ι)) (worker buyer : ι), worker ≠ buyer →
        ∃ found, workerReachesBuyerOnEdges edges worker buyer = some found ∧
          (found = true ↔ TransGen (Edge edges) worker buyer) := by
  constructor
  · refine hr.throughout_of (J := fun s => Acyclic (activeEdges s)) (fun s h0 a hp => ?_)
      (fun _ _ _ h hs hg => acyclic_step h hg hs) (fun _ h => h) hg
    obtain ⟨b, he, -⟩ := TransGen.head'_iff.mp hp
    rw [h0] at he
    cases he
  · intro edges worker buyer hne
    obtain ⟨found, hfound, hiff⟩ := workerReachesBuyerOnEdges_spec edges worker buyer
    refine ⟨found, hfound, hiff.trans ?_⟩
    rw [and_iff_right hne, reflTransGen_iff_eq_or_transGen, or_iff_right (Ne.symm hne)]

namespace Sample

/-- The first payment is over when the second one is agreed, the other way round. -/
def twoWays : List (Act ℕ ℕ) :=
  [.create 0 1, .lock 0 2 true, .transition 0 .cancelled, .create 1 2, .lock 1 1 true]

def reopened : List (Act ℕ ℕ) := twoWays ++ [.transition 0 .frozen]

def after (as : List (Act ℕ ℕ)) : Table ℕ ℕ := stateAfter step as []

end Sample

open CycleGuard.Sample

theorem two_ways_acyclic : Acyclic (activeEdges (after twoWays)) :=
  (payment_graph_acyclic (.stateAfter (.start rfl)) (by decide +kernel)).1.last

/-- Freezing the cancelled payment brings its edge back, and closes the cycle. -/
theorem frozen_payment_closes_cycle :
    Run (· = []) step (record step reopened [] []) (after reopened) ∧
      ¬ Acyclic (activeEdges (after reopened)) := by
  refine ⟨.stateAfter (.start rfl), fun h => h 1 ?_⟩
  exact .tail (.single (b := 2) (by decide +kernel)) (by decide +kernel)

end Karma.Settlement.CycleGuard
