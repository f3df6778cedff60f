import Mathlib.Algebra.Group.Nat.Defs
import Mathlib.Tactic.Common

/-! # Transactions that call out

A contract function reads and writes the world, it may *revert* (and then none of its writes
remain), and it may hand control to foreign code, which sees the half-updated world and may itself
change it. `Tx ε σ α` is the monad of such functions: a run yields the list of worlds shown to
foreign code together with either an error or a value and the final world. -/

namespace Karma.Evm

/-- The **outcome** of running contract code from a world. -/
structure Outcome (ε σ α : Type) where
  seen : List σ
  /-- The error the code reverted with, or its value and the final world. -/
  result : Except ε (α × σ)

/-- Contract code over worlds `σ`, with errors `ε` and value `α`. -/
def Tx (ε σ α : Type) : Type := σ → Outcome ε σ α

namespace Tx

variable {ε σ α β κ : Type}

instance : Monad (Tx ε σ) where
  pure a := fun s => ⟨[], .ok (a, s)⟩
  bind x f := fun s =>
    match x s with
    | ⟨seen, .error e⟩ => ⟨seen, .error e⟩
    | ⟨seen, .ok (a, s')⟩ => let o := f a s'; ⟨seen ++ o.seen, o.result⟩

def get : Tx ε σ σ := fun s => ⟨[], .ok (s, s)⟩

def set (s : σ) : Tx ε σ Unit := fun _ => ⟨[], .ok ((), s)⟩

def modify (f : σ → σ) : Tx ε σ Unit := fun s => ⟨[], .ok ((), f s)⟩

def revert (e : ε) : Tx ε σ α := fun _ => ⟨[], .error e⟩

def revertIf (c : Prop) [Decidable c] (e : ε) : Tx ε σ Unit :=
  if c then revert e else pure ()

def ofOption (e : ε) : Option α → Tx ε σ α
  | some a => pure a
  | none => revert e

/-- The worlds foreign code passes through when it performs `acts` from `s`, the first one
included. -/
def worlds (run : κ → σ → σ) : List κ → σ → List σ
  | [], s => [s]
  | a :: acts, s => s :: worlds run acts (run a s)

def after (run : κ → σ → σ) (acts : List κ) (s : σ) : σ := acts.foldl (fun s a => run a s) s

def callOut (run : κ → σ → σ) (acts : List κ) (answer : Option α) : Tx ε σ (Option α) := fun s =>
  ⟨worlds run acts s, .ok (answer, if answer.isSome then after run acts s else s)⟩

/-- Foreign code is in control and looks at the world. -/
def observe : Tx ε σ Unit := fun s => ⟨[s], .ok ((), s)⟩

/-- A call made by foreign code: if it reverts, the world is as before, and the caller goes on. -/
def attempt (x : Tx ε σ α) : Tx ε σ Unit := fun s =>
  match x s with
  | ⟨seen, .ok (_, s')⟩ => ⟨seen, .ok ((), s')⟩
  | ⟨seen, .error _⟩ => ⟨seen, .ok ((), s)⟩

def mapError (f : ε → ε) (x : Tx ε σ α) : Tx ε σ α := fun s =>
  match x s with
  | ⟨seen, .ok r⟩ => ⟨seen, .ok r⟩
  | ⟨seen, .error e⟩ => ⟨seen, .error (f e)⟩

def checkedAdd (e : ε) (a b : ℕ) : Tx ε σ ℕ := if a + b < 2 ^ 256 then pure (a + b) else revert e

def checkedSub (e : ε) (a b : ℕ) : Tx ε σ ℕ := if b ≤ a then pure (a - b) else revert e

def checkedMul (e : ε) (a b : ℕ) : Tx ε σ ℕ := if a * b < 2 ^ 256 then pure (a * b) else revert e

/-! ## Weakest preconditions -/

/-- **Weakest precondition**: run from `s`, the code shows foreign code only worlds in `I`, and ends
with an error in `E` or with a value and a world in `Q`. `E := fun _ => True` gives partial
correctness, `E := fun _ => False` says that `x` succeeds. -/
def wp (x : Tx ε σ α) (I : σ → Prop) (E : ε → Prop) (Q : α → σ → Prop) (s : σ) : Prop :=
  (∀ v ∈ (x s).seen, I v) ∧ match (x s).result with
    | .ok (a, s') => Q a s'
    | .error e => E e

/-- **Partial correctness**: if the code succeeds from `s`, its value and its world are in `Q`. -/
abbrev post (x : Tx ε σ α) (Q : α → σ → Prop) (s : σ) : Prop :=
  wp x (fun _ => True) (fun _ => True) Q s

variable {I I' : σ → Prop} {E E' : ε → Prop} {Q Q' : α → σ → Prop} {s : σ}

@[simp] theorem wp_pure (a : α) : wp (pure a : Tx ε σ α) I E Q s ↔ Q a s := by
  simp [wp, pure]

@[simp] theorem wp_bind (x : Tx ε σ α) (f : α → Tx ε σ β) (Q : β → σ → Prop) :
    wp (x >>= f) I E Q s ↔ wp x I E (fun a s' => wp (f a) I E Q s') s := by
  simp only [wp, bind]
  rcases hx : x s with ⟨seen, _ | ⟨a, s'⟩⟩
  · simp
  · simp only [List.mem_append, or_imp, forall_and, and_assoc]

@[simp] theorem wp_get (Q : σ → σ → Prop) : wp (get : Tx ε σ σ) I E Q s ↔ Q s s := by
  simp [wp, get]

@[simp] theorem wp_set (s' : σ) (Q : Unit → σ → Prop) :
    wp (set s' : Tx ε σ Unit) I E Q s ↔ Q () s' := by
  simp [wp, set]

@[simp] theorem wp_modify (f : σ → σ) (Q : Unit → σ → Prop) :
    wp (modify f : Tx ε σ Unit) I E Q s ↔ Q () (f s) := by
  simp [wp, modify]

@[simp] theorem wp_revert (e : ε) : wp (revert e : Tx ε σ α) I E Q s ↔ E e := by
  simp [wp, revert]

@[simp] theorem wp_ite (c : Prop) [Decidable c] (x y : Tx ε σ α) :
    wp (if c then x else y) I E Q s ↔ (c → wp x I E Q s) ∧ (¬ c → wp y I E Q s) := by
  by_cases h : c <;> simp [h]

@[simp] theorem wp_revertIf (c : Prop) [Decidable c] (e : ε) (Q : Unit → σ → Prop) :
    wp (revertIf c e : Tx ε σ Unit) I E Q s ↔ (c → E e) ∧ (¬ c → Q () s) := by
  simp [revertIf]

@[simp] theorem wp_ofOption (e : ε) (o : Option α) :
    wp (ofOption e o : Tx ε σ α) I E Q s ↔ (o = none → E e) ∧ ∀ a, o = some a → Q a s := by
  cases o <;> simp [ofOption]

@[simp] theorem wp_observe (Q : Unit → σ → Prop) :
    wp (observe : Tx ε σ Unit) I E Q s ↔ I s ∧ Q () s := by
  simp [wp, observe]

@[simp] theorem wp_attempt (x : Tx ε σ α) (Q : Unit → σ → Prop) :
    wp (attempt x) I E Q s ↔ wp x I (fun _ => Q () s) (fun _ s' => Q () s') s := by
  simp only [wp, attempt]
  rcases hx : x s with ⟨seen, _ | ⟨a, s'⟩⟩
  · rfl
  · rfl

@[simp] theorem wp_mapError (f : ε → ε) (x : Tx ε σ α) :
    wp (mapError f x) I E Q s ↔ wp x I (fun e => E (f e)) Q s := by
  simp only [wp, mapError]
  rcases hx : x s with ⟨seen, _ | ⟨a, s'⟩⟩
  · rfl
  · rfl

@[simp] theorem wp_checkedAdd (e : ε) (a b : ℕ) (Q : ℕ → σ → Prop) :
    wp (checkedAdd e a b : Tx ε σ ℕ) I E Q s ↔
      (a + b < 2 ^ 256 → Q (a + b) s) ∧ (¬ a + b < 2 ^ 256 → E e) := by
  simp only [checkedAdd, wp_ite, wp_pure, wp_revert]

@[simp] theorem wp_checkedSub (e : ε) (a b : ℕ) (Q : ℕ → σ → Prop) :
    wp (checkedSub e a b : Tx ε σ ℕ) I E Q s ↔ (b ≤ a → Q (a - b) s) ∧ (¬ b ≤ a → E e) := by
  simp only [checkedSub, wp_ite, wp_pure, wp_revert]

@[simp] theorem wp_checkedMul (e : ε) (a b : ℕ) (Q : ℕ → σ → Prop) :
    wp (checkedMul e a b : Tx ε σ ℕ) I E Q s ↔
      (a * b < 2 ^ 256 → Q (a * b) s) ∧ (¬ a * b < 2 ^ 256 → E e) := by
  simp only [checkedMul, wp_ite, wp_pure, wp_revert]

theorem wp_code {I : σ → Prop} {E : ε → Prop} {s : σ} :
    (∀ {α : Type} (a : α) (Q : α → σ → Prop), wp (pure a : Tx ε σ α) I E Q s ↔ Q a s) ∧
    (∀ {α β : Type} (x : Tx ε σ α) (f : α → Tx ε σ β) (Q : β → σ → Prop),
      wp (x >>= f) I E Q s ↔ wp x I E (fun a s' => wp (f a) I E Q s') s) ∧
    (∀ Q : σ → σ → Prop, wp (get : Tx ε σ σ) I E Q s ↔ Q s s) ∧
    (∀ s' (Q : Unit → σ → Prop), wp (set s' : Tx ε σ Unit) I E Q s ↔ Q () s') ∧
    (∀ f (Q : Unit → σ → Prop), wp (modify f : Tx ε σ Unit) I E Q s ↔ Q () (f s)) ∧
    (∀ {α : Type} (c : Prop) [Decidable c] (x y : Tx ε σ α) (Q : α → σ → Prop),
      wp (if c then x else y) I E Q s ↔ (c → wp x I E Q s) ∧ (¬ c → wp y I E Q s)) ∧
    (∀ (c : Prop) [Decidable c] (e : ε) (Q : Unit → σ → Prop),
      wp (revertIf c e) I E Q s ↔ (c → E e) ∧ (¬ c → Q () s)) ∧
    (∀ {α : Type} (e : ε) (o : Option α) (Q : α → σ → Prop),
      wp (ofOption e o) I E Q s ↔ (o = none → E e) ∧ ∀ a, o = some a → Q a s) ∧
    (∀ (e : ε) a b (Q : ℕ → σ → Prop), wp (checkedAdd e a b) I E Q s ↔
      (a + b < 2 ^ 256 → Q (a + b) s) ∧ (¬ a + b < 2 ^ 256 → E e)) ∧
    (∀ (e : ε) a b (Q : ℕ → σ → Prop), wp (checkedSub e a b) I E Q s ↔
      (b ≤ a → Q (a - b) s) ∧ (¬ b ≤ a → E e)) ∧
    ∀ (e : ε) a b (Q : ℕ → σ → Prop), wp (checkedMul e a b) I E Q s ↔
      (a * b < 2 ^ 256 → Q (a * b) s) ∧ (¬ a * b < 2 ^ 256 → E e) :=
  ⟨fun a _ => wp_pure a, wp_bind, wp_get, wp_set, wp_modify, fun c _ x y _ => wp_ite c x y,
    wp_revertIf, fun e o _ => wp_ofOption e o, wp_checkedAdd, wp_checkedSub, wp_checkedMul⟩

theorem post_code {I : σ → Prop} {s : σ} : (∀ {α : Type} (a : α) (Q : α → σ → Prop),
      wp (pure a : Tx ε σ α) I (fun _ => True) Q s ↔ Q a s) ∧
    (∀ {α β : Type} (x : Tx ε σ α) (f : α → Tx ε σ β) (Q : β → σ → Prop),
      wp (x >>= f) I (fun _ => True) Q s ↔
        wp x I (fun _ => True) (fun a s' => wp (f a) I (fun _ => True) Q s') s) ∧
    (∀ Q : σ → σ → Prop, wp (get : Tx ε σ σ) I (fun _ => True) Q s ↔ Q s s) ∧
    (∀ s' (Q : Unit → σ → Prop), wp (set s' : Tx ε σ Unit) I (fun _ => True) Q s ↔ Q () s') ∧
    (∀ f (Q : Unit → σ → Prop), wp (modify f : Tx ε σ Unit) I (fun _ => True) Q s ↔ Q () (f s)) ∧
    (∀ {α : Type} (c : Prop) [Decidable c] (x y : Tx ε σ α) (Q : α → σ → Prop),
      wp (if c then x else y) I (fun _ => True) Q s ↔
        (c → wp x I (fun _ => True) Q s) ∧ (¬ c → wp y I (fun _ => True) Q s)) ∧
    (∀ (c : Prop) [Decidable c] (e : ε) (Q : Unit → σ → Prop),
      wp (revertIf c e) I (fun _ => True) Q s ↔ (¬ c → Q () s)) ∧
    (∀ {α : Type} (e : ε) (o : Option α) (Q : α → σ → Prop),
      wp (ofOption e o) I (fun _ => True) Q s ↔ ∀ a, o = some a → Q a s) ∧
    (∀ (e : ε) a b (Q : ℕ → σ → Prop), wp (checkedAdd e a b) I (fun _ => True) Q s ↔
      (a + b < 2 ^ 256 → Q (a + b) s)) ∧
    (∀ (e : ε) a b (Q : ℕ → σ → Prop), wp (checkedSub e a b) I (fun _ => True) Q s ↔
      (b ≤ a → Q (a - b) s)) ∧
    ∀ (e : ε) a b (Q : ℕ → σ → Prop), wp (checkedMul e a b) I (fun _ => True) Q s ↔
      (a * b < 2 ^ 256 → Q (a * b) s) := by
  simp

/-! ## External calls -/

theorem worlds_rel {R : σ → σ → Prop} {run : κ → σ → σ} (hrefl : ∀ s, R s s)
    (htrans : ∀ s t u, R s t → R t u → R s u) (acts : List κ)
    (hrun : ∀ a ∈ acts, ∀ s, R s (run a s)) (s : σ) :
    (∀ v ∈ worlds run acts s, R s v) ∧ R s (after run acts s) := by
  induction acts generalizing s with
  | nil => simp [worlds, after, hrefl]
  | cons a acts ih =>
    have hfirst : R s (run a s) := hrun a List.mem_cons_self s
    obtain ⟨hseen, hend⟩ := ih (fun b hb => hrun b (List.mem_cons_of_mem _ hb)) (run a s)
    refine ⟨?_, htrans _ _ _ hfirst hend⟩
    intro v hv
    rcases List.mem_cons.mp hv with rfl | hv
    · exact hrefl v
    · exact htrans _ _ _ hfirst (hseen v hv)

theorem wp_callOut {R : σ → σ → Prop} {run : κ → σ → σ} (hrefl : ∀ s, R s s)
    (htrans : ∀ s t u, R s t → R t u → R s u) (acts : List κ)
    (hrun : ∀ a ∈ acts, ∀ s, R s (run a s)) (answer : Option α) (Q : Option α → σ → Prop)
    (hI : ∀ v, R s v → I v)
    (hsome : ∀ a v, answer = some a → R s v → Q (some a) v) (hnone : answer = none → Q none s) :
    wp (callOut run acts answer : Tx ε σ (Option α)) I E Q s := by
  obtain ⟨hseen, hend⟩ := worlds_rel hrefl htrans acts hrun s
  refine ⟨fun v hv => hI v (hseen v hv), ?_⟩
  cases answer with
  | none => exact hnone rfl
  | some a => exact hsome a _ rfl hend

@[simp] theorem wp_callOut_nil (run : κ → σ → σ) (answer : Option α) (Q : Option α → σ → Prop) :
    wp (callOut run [] answer : Tx ε σ (Option α)) I E Q s ↔ I s ∧ Q answer s := by
  simp [wp, callOut, worlds, after]

theorem wp_callOut_of_acts (run : κ → σ → σ) (acts : List κ) (answer : Option α)
    (Q : Option α → σ → Prop) :
    wp (callOut run acts answer : Tx ε σ (Option α)) (fun _ => True) E Q s ↔
      Q answer (if answer.isSome then after run acts s else s) := by
  simp [wp, callOut]

variable {x : Tx ε σ α}

theorem wp_both {I'' : σ → Prop} {E'' : ε → Prop} {Q'' : α → σ → Prop} (h : wp x I E Q s)
    (h' : wp x I' E' Q' s) (hI : ∀ v, I v → I' v → I'' v) (hE : ∀ e, E e → E' e → E'' e)
    (hQ : ∀ a v, Q a v → Q' a v → Q'' a v) : wp x I'' E'' Q'' s := by
  refine ⟨fun v hv => hI v (h.1 v hv) (h'.1 v hv), ?_⟩
  have h2 := h.2
  have h2' := h'.2
  rcases hr : (x s).result with e | ⟨a, v⟩
  · rw [hr] at h2 h2'
    exact hE e h2 h2'
  · rw [hr] at h2 h2'
    exact hQ a v h2 h2'

theorem wp_mono (h : wp x I E Q s) (hQ : ∀ a v, Q a v → Q' a v) : wp x I E Q' s :=
  wp_both h h (fun _ hI _ => hI) (fun _ hE _ => hE) fun a v hv _ => hQ a v hv

theorem post_of_wp (h : wp x (fun _ => True) E Q s) : post x Q s :=
  wp_both h h (fun _ _ _ => trivial) (fun _ _ _ => trivial) fun _ _ hQ _ => hQ

theorem wp_ok (h : wp x I E Q s) {a : α} {s' : σ} (hr : (x s).result = .ok (a, s')) : Q a s' := by
  have h2 := h.2
  rw [hr] at h2
  exact h2

theorem wp_error (h : wp x I E Q s) {e : ε} (hr : (x s).result = .error e) : E e := by
  have h2 := h.2
  rw [hr] at h2
  exact h2

theorem post_result (x : Tx ε σ α) (s : σ) : post x (fun a s' => (x s).result = .ok (a, s')) s := by
  refine ⟨fun _ _ => trivial, ?_⟩
  rcases hr : (x s).result with e | ⟨a, s'⟩
  · trivial
  · rfl

theorem exists_ok_of_wp (h : wp x I (fun _ => False) Q s) :
    ∃ a s', (x s).result = .ok (a, s') ∧ Q a s' := by
  have h2 := h.2
  rcases hr : (x s).result with e | ⟨a, s'⟩
  · rw [hr] at h2
    exact h2.elim
  · rw [hr] at h2
    exact ⟨a, s', rfl, h2⟩

theorem eq_ok_of_wp {a : α} {s' : σ}
    (h : wp x (fun _ => False) (fun _ => False) (fun b t => b = a ∧ t = s') s) :
    x s = ⟨[], .ok (a, s')⟩ := by
  obtain ⟨b, t, hr, rfl, rfl⟩ := exists_ok_of_wp h
  have hseen : (x s).seen = [] := List.eq_nil_iff_forall_not_mem.mpr h.1
  rw [← hr, ← hseen]

theorem error_of_wp {e : ε} (h : wp x I (· = e) (fun _ _ => False) s) :
    (x s).result = .error e := by
  have h2 := h.2
  rcases hr : (x s).result with e' | ⟨a, s'⟩
  · rw [hr] at h2
    exact congrArg Except.error h2
  · rw [hr] at h2
    exact h2.elim

end Tx

end Karma.Evm
