import Karma.Arith.Round
import Karma.Evm.Run

/-! # `bond_slash` — the ledger of slashes

A row is named by its place in the table. Transaction hashes are taken without surrounding space, an
empty one as none. -/

namespace Karma.Slashing

open Evm Arith

inductive Status
  | pending
  | submitted
  | settled
  | failed
  deriving DecidableEq

variable {Key Tx : Type}

/-- `BondSlash`; the key is the subject and the source, each with its kind. -/
structure Slash (Key Tx : Type) where
  key : Key
  amount : ℚ
  victimAmount : ℚ
  poolAmount : ℚ
  status : Status := .pending
  attempts : ℕ := 0
  txHash : Option Tx := none

abbrev Ledger (Key Tx : Type) := List (Slash Key Tx)

variable (victimBps : ℕ)

def split (amount : ℚ) (hasVictim : Bool) : ℚ × ℚ :=
  let total := max 0 amount
  if hasVictim then
    let share := roundTo 8 (total * victimBps / 10000)
    let victim := if total < share then total else share
    (victim, roundTo 8 (total - victim))
  else (0, total)

/-- The row that `record_slash` makes. -/
def newSlash (key : Key) (amount : ℚ) (hasVictim : Bool) : Slash Key Tx :=
  let shares := split victimBps amount hasVictim
  { key, amount := roundTo 8 (max 0 amount), victimAmount := shares.1, poolAmount := shares.2 }

def recordSlash [DecidableEq Key] (l : Ledger Key Tx) (key : Key) (amount : ℚ)
    (hasVictim : Bool) : Ledger Key Tx :=
  if key ∈ l.map (·.key) then l else l ++ [newSlash victimBps key amount hasVictim]

def settleSlash (l : Ledger Key Tx) (id : ℕ) (status : Status) (txHash : Option Tx) :
    Option (Ledger Key Tx) :=
  match l[id]? with
  | none => none
  | some row =>
    if status = .pending ∨ status = .settled ∧ txHash = none then none
    else some (l.set id
      { row with status, attempts := row.attempts + 1, txHash := txHash.or row.txHash })

def slashInstructions (l : Ledger Key Tx) : Ledger Key Tx :=
  l.filter fun row => row.status = .pending ∨ row.status = .failed

inductive Act (Key Tx : Type)
  | record (key : Key) (amount : ℚ) (hasVictim : Bool)
  | settle (id : ℕ) (status : Status) (txHash : Option Tx)

def step [DecidableEq Key] (l : Ledger Key Tx) : Act Key Tx → Option (Ledger Key Tx)
  | .record key amount hasVictim => some (recordSlash victimBps l key amount hasVictim)
  | .settle id status txHash => settleSlash l id status txHash

abbrev History (Key Tx : Type) := List (Entry (Ledger Key Tx) (Act Key Tx))

def Marked (h : History Key Tx) (id : ℕ) (tx : Tx) : Prop :=
  ∃ e ∈ h, e.act = .settle id .settled (some tx)

structure Once (h : History Key Tx) (l : Ledger Key Tx) : Prop where
  unique : (l.map (·.key)).Nodup
  shares : ∀ row ∈ l, row.victimAmount + row.poolAmount = row.amount
  final : ∀ id tx, Marked h id tx → ∃ row, l[id]? = some row ∧ row.status = .settled ∧
    row.txHash = some tx ∧ row.key ∉ (slashInstructions l).map (·.key)

/-- The step splits what it records exactly, and leaves a settled row with its transaction. -/
def Careful (e : Entry (Ledger Key Tx) (Act Key Tx)) : Prop :=
  match e.act with
  | .record key amount hasVictim => key ∈ e.pre.map (·.key) ∨
      (split victimBps amount hasVictim).1 + (split victimBps amount hasVictim).2
        = roundTo 8 (max 0 amount)
  | .settle id status txHash => ∀ row, e.pre[id]? = some row → row.status = .settled →
      status = .settled ∧ txHash = row.txHash

structure Booked (h : History Key Tx) (l : Ledger Key Tx) : Prop where
  unique : (l.map (·.key)).Nodup
  shares : ∀ row ∈ l, row.victimAmount + row.poolAmount = row.amount
  final : ∀ id tx, Marked h id tx → ∃ row, l[id]? = some row ∧ row.status = .settled ∧
    row.txHash = some tx
  marked : ∀ id row, l[id]? = some row → row.status = .settled →
    ∃ tx, Marked h id tx ∧ row.txHash = some tx

variable {victimBps} {h : History Key Tx} {l l' : Ledger Key Tx} {a : Act Key Tx}

theorem Booked.once (hb : Booked h l) : Once h l where
  unique := hb.unique
  shares := hb.shares
  final id tx hm := by
    obtain ⟨row, hrow, hst, htx⟩ := hb.final id tx hm
    refine ⟨row, hrow, hst, htx, fun hlisted => ?_⟩
    obtain ⟨other, hother, hkey⟩ := List.mem_map.mp hlisted
    obtain ⟨hmem, hopen⟩ := List.mem_filter.mp hother
    obtain rfl := List.inj_on_of_nodup_map hb.unique hmem (List.mem_of_getElem? hrow) hkey
    simp [hst] at hopen

theorem Booked.record (hb : Booked h l) {row : Slash Key Tx} (hnew : row.key ∉ l.map (·.key))
    (hsum : row.victimAmount + row.poolAmount = row.amount) (hst : row.status = .pending) :
    Booked h (l ++ [row]) where
  unique := by
    rw [List.map_append, List.nodup_append']
    exact ⟨hb.unique, List.nodup_singleton _, by simpa using hnew⟩
  shares := List.forall_mem_append.mpr ⟨hb.shares, by simpa using hsum⟩
  final id tx hm := by
    obtain ⟨old, hold, hrest⟩ := hb.final id tx hm
    have hlt := (List.getElem?_eq_some_iff.mp hold).1
    exact ⟨old, by rwa [List.getElem?_append_left hlt], hrest⟩
  marked id old hold hset := by
    rw [List.getElem?_append] at hold
    split at hold
    · exact hb.marked id old hold hset
    · obtain rfl := List.mem_singleton.mp (List.mem_of_getElem? hold)
      simp [hst] at hset

theorem Booked.settle (hb : Booked h l) {id : ℕ} {row : Slash Key Tx} {status : Status}
    {txHash : Option Tx} {n : ℕ} (hrow : l[id]? = some row)
    (hok : ¬ (status = .pending ∨ status = .settled ∧ txHash = none))
    (hkeep : row.status = .settled → status = .settled ∧ txHash = row.txHash) :
    Booked (⟨l, .settle id status txHash, l'⟩ :: h)
      (l.set id { row with status, attempts := n, txHash := txHash.or row.txHash }) where
  unique := by
    have hkey : (l.map (·.key))[id]? = some row.key := by simp [hrow]
    rw [List.map_set, ← List.getElem?_eq_some_iff.mp hkey |>.2, List.set_getElem_self]
    exact hb.unique
  shares other hother := by
    rcases List.mem_or_eq_of_mem_set hother with hmem | rfl
    · exact hb.shares other hmem
    · exact hb.shares row (List.mem_of_getElem? hrow)
  final j tx hm := by
    have hlt := (List.getElem?_eq_some_iff.mp hrow).1
    obtain ⟨e, he, hact⟩ := hm
    rcases List.mem_cons.mp he with rfl | he
    · cases hact
      exact ⟨_, List.getElem?_set_self hlt, rfl, rfl⟩
    · obtain ⟨old, hold, hst, htx⟩ := hb.final j tx ⟨e, he, hact⟩
      rcases eq_or_ne id j with rfl | hne
      · obtain rfl := Option.some.inj (hrow.symm.trans hold)
        obtain ⟨rfl, rfl⟩ := hkeep hst
        exact ⟨_, List.getElem?_set_self hlt, rfl, by simp [htx]⟩
      · exact ⟨old, by rwa [List.getElem?_set_ne hne], hst, htx⟩
  marked j other hother hset := by
    have hlt := (List.getElem?_eq_some_iff.mp hrow).1
    rcases eq_or_ne id j with rfl | hne
    · rw [List.getElem?_set_self hlt] at hother
      obtain rfl := Option.some.inj hother
      obtain rfl : status = .settled := hset
      obtain ⟨tx, rfl⟩ := Option.ne_none_iff_exists'.mp fun h => hok (.inr ⟨rfl, h⟩)
      exact ⟨tx, ⟨_, .head _, rfl⟩, rfl⟩
    · rw [List.getElem?_set_ne hne] at hother
      obtain ⟨tx, ⟨e, he, hact⟩, htx⟩ := hb.marked j other hother hset
      exact ⟨tx, ⟨e, .tail _ he, hact⟩, htx⟩

variable [DecidableEq Key]

namespace Sample

def reopened : List (Act Unit Unit) :=
  [.record () 10 true, .settle 0 .settled (some ()), .settle 0 .failed none]

def ledgerAfter (as : List (Act Unit Unit)) : Ledger Unit Unit := stateAfter (step 8000) as []

end Sample

open Sample

end Karma.Slashing
