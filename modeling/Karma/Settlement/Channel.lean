import Karma.Spending.Grant

/-! # Settlement channels

`services/settlement_channel.py`. Two parties exchange states with growing sequence numbers, each
signed over its text, `canonical_state_message`. -/

namespace Karma.Settlement.Channel

open Evm Function
open Spending (Text line)

structure State where
  channelId : Text
  seq : ℤ
  metaHash : Text
  balances : List (Text × Text)
  nodup : (balances.map Prod.fst).Nodup

/-- `str` of an integer. -/
def intText : ℤ → Text
  | .ofNat n => Nat.toDigits 10 n
  | .negSucc n => '-' :: Nat.toDigits 10 (n + 1)

def balanceLine (b : Text × Text) : Text := b.1 ++ ':' :: b.2

def State.lines (s : State) : List Text :=
  ["Karma Settlement Channel v1".toList, line "channel_id" s.channelId, line "seq" (intText s.seq),
    line "meta_hash" s.metaHash] ++
  -- the parties differ, so the amounts do not matter for the order
  (s.balances.insertionSort (fun a b => a.1 ≤ b.1)).map balanceLine

def canonicalStateMessage (s : State) : Text := ['\n'].intercalate s.lines

structure State.Same (s s' : State) : Prop where
  channelId : s.channelId = s'.channelId
  seq : s.seq = s'.seq
  metaHash : s.metaHash = s'.metaHash
  balances : s.balances.Perm s'.balances

structure State.Lacks (s : State) (c : Char) : Prop where
  channelId : c ∉ s.channelId
  metaHash : c ∉ s.metaHash
  balances : ∀ b ∈ s.balances, c ∉ b.1 ∧ c ∉ b.2

structure State.Plain (s : State) : Prop where
  oneLine : s.Lacks '\n'
  party : ∀ b ∈ s.balances, ':' ∉ b.1

theorem digit_or_minus {n : ℤ} {c : Char} (h : c ∈ intText n) : c.isDigit ∨ c = '-' := by
  cases n with
  | ofNat n => exact Or.inl (Nat.isDigit_of_mem_toDigits (by decide) le_rfl h)
  | negSucc n =>
    rcases List.mem_cons.mp h with rfl | h
    · exact Or.inr rfl
    · exact Or.inl (Nat.isDigit_of_mem_toDigits (by decide) le_rfl h)

theorem intText_injective : Injective intText := by
  have hdigits : ∀ {m n : ℕ}, Nat.toDigits 10 m = Nat.toDigits 10 n → m = n := fun h => by
    simpa only [Nat.ofDigitChars_ten_toDigits] using congrArg (fun ds => Nat.ofDigitChars 10 ds 0) h
  have hminus : ∀ (m : ℕ) (t : Text), Nat.toDigits 10 m ≠ '-' :: t := fun m t h =>
    absurd (Nat.isDigit_of_mem_toDigits (n := m) (c := '-') (by decide) le_rfl (h ▸ by simp))
      (by decide)
  intro m n h
  cases m <;> cases n <;> simp only [intText, List.cons.injEq, true_and] at h
  · rw [hdigits h]
  · exact absurd h (hminus _ _)
  · exact absurd h.symm (hminus _ _)
  · rw [Nat.succ_injective (hdigits h)]

theorem State.Lacks.lines {s : State} {c : Char} (hs : s.Lacks c)
    (hc : ¬ c.isDigit ∧ c ≠ '-' ∧ c ≠ ':' ∧ c ∉ "Karma Settlement Channel v1".toList ∧
      c ∉ "channel_id".toList ∧ c ∉ "seq".toList ∧ c ∉ "meta_hash".toList) :
    ∀ l ∈ s.lines, c ∉ l := by
  obtain ⟨hdigit, hminus, hcolon, hc⟩ := hc
  have hseq : c ∉ intText s.seq := fun h => (digit_or_minus h).elim hdigit hminus
  have hbalances : ∀ l ∈ (s.balances.insertionSort (fun a b => a.1 ≤ b.1)).map balanceLine,
      c ∉ l := by
    simp only [List.forall_mem_map, List.mem_insertionSort]
    intro b hb
    simpa [balanceLine, hcolon] using hs.balances b hb
  simp only [State.lines, List.forall_mem_append, List.forall_mem_cons]
  exact ⟨⟨hc.1, by simpa [line, hcolon, hs.channelId] using hc.2.1,
    by simpa [line, hcolon, hseq] using hc.2.2.1,
    by simpa [line, hcolon, hs.metaHash] using hc.2.2.2, by simp⟩, hbalances⟩

theorem balanceLine_inj {b b' : Text × Text} (hb : ':' ∉ b.1) (hb' : ':' ∉ b'.1)
    (h : balanceLine b = balanceLine b') : b = b' := by
  have hspan : ∀ b : Text × Text, ':' ∉ b.1 →
      (balanceLine b).span (· ≠ ':') = (b.1, ':' :: b.2) := fun b hb => by
    have hpos : ∀ c ∈ b.1, decide (c ≠ ':') = true := fun c hc => by
      simpa using ne_of_mem_of_not_mem hc hb
    rw [balanceLine, List.span_eq_takeWhile_dropWhile, List.takeWhile_append_of_pos hpos,
      List.dropWhile_append_of_pos hpos]
    simp
  have heq := hspan b hb
  rw [h, hspan b' hb'] at heq
  simp only [Prod.mk.injEq, List.cons.injEq, true_and] at heq
  exact Prod.ext heq.1.symm heq.2.symm

theorem forall₂_of_map_eq {α β : Type} {f : α → β} {R : α → α → Prop} {l l' : List α}
    (hR : ∀ a ∈ l, ∀ b ∈ l', f a = f b → R a b) (h : l.map f = l'.map f) :
    List.Forall₂ R l l' := by
  induction l generalizing l' with
  | nil =>
    obtain rfl : l' = [] := List.map_eq_nil_iff.mp h.symm
    exact .nil
  | cons a l ih =>
    cases l' with
    | nil => cases h
    | cons b l' =>
      simp only [List.map_cons, List.cons.injEq] at h
      exact .cons (hR a (by simp) b (by simp) h.1)
        (ih (fun a ha b hb => hR a (by simp [ha]) b (by simp [hb])) h.2)

theorem State.Plain.same {s s' : State} (hs : s.Plain) (hs' : s'.Plain)
    (h : canonicalStateMessage s = canonicalStateMessage s') : s.Same s' := by
  have hlines : s.lines = s'.lines := by
    rw [← List.splitOn_intercalate '\n' (hs.oneLine.lines (by decide)) (by simp [State.lines]),
      ← List.splitOn_intercalate '\n' (hs'.oneLine.lines (by decide)) (by simp [State.lines])]
    exact congrArg _ h
  simp only [State.lines, line, List.cons_append, List.nil_append, List.cons.injEq,
    List.append_cancel_left_eq, true_and] at hlines
  obtain ⟨hid, hseq, hmeta, hbalances⟩ := hlines
  have hsort := List.perm_insertionSort (fun a b : Text × Text => a.1 ≤ b.1)
  refine ⟨hid, intText_injective hseq, hmeta, (hsort s.balances).symm.trans ?_⟩
  have heq := forall₂_of_map_eq (R := Eq) (fun b hb b' hb' => balanceLine_inj
    (hs.party b ((List.mem_insertionSort _).mp hb))
    (hs'.party b' ((List.mem_insertionSort _).mp hb'))) hbalances
  rw [List.forall₂_eq_eq_eq] at heq
  exact heq ▸ hsort s'.balances

namespace Sample

def channelState (id : String) (seq : ℤ) (metaHash : String) (balances : List (String × String))
    (h : ((balances.map fun b => (b.1.toList, b.2.toList)).map Prod.fst).Nodup := by decide) :
    State :=
  ⟨id.toList, seq, metaHash.toList, balances.map fun b => (b.1.toList, b.2.toList), h⟩

end Sample

open Channel.Sample

structure Scheme (Party Sig : Type) where
  recover : Text → Sig → Option Party
  sign : Party → Text → Sig
  recover_sign : ∀ p m, recover m (sign p m) = some p
  unforgeable : ∀ {m m' : Text} {σ : Sig} {p : Party},
    recover m σ = some p → recover m' σ = some p → m = m'

structure Ledger (Party Sig : Type) where
  parties : List Party
  latestSeq : ℤ
  latest : Option State
  signatures : Party → Option Sig

structure Call (Party Sig : Type) where
  state : State
  signature : Sig
  signer : Party

variable {Party Sig : Type} [DecidableEq Party] (K : Scheme Party Sig)

def Ledger.apply (l : Ledger Party Sig) (c : Call Party Sig) : Option (Ledger Party Sig) :=
  if c.signer ∈ l.parties ∧ K.recover (canonicalStateMessage c.state) c.signature = some c.signer ∧
      l.latestSeq < c.state.seq then
    some { l with
      latestSeq := c.state.seq
      latest := some c.state
      signatures := update l.signatures c.signer (some c.signature) }
  else none

def Ledger.exitEvidence (l : Ledger Party Sig) : Option (State × ℤ × (Party → Option Sig)) :=
  l.latest.map fun s => (s, l.latestSeq, l.signatures)

def Ledger.Fresh (l : Ledger Party Sig) : Prop :=
  ∃ p q, p ≠ q ∧ l = ⟨[p, q], -1, none, fun _ => none⟩

abbrev Ledger.Reach (h : List (Entry (Ledger Party Sig) (Call Party Sig)))
    (l : Ledger Party Sig) : Prop :=
  Run Ledger.Fresh (Ledger.apply K) h l

variable {K} {h : List (Entry (Ledger Party Sig) (Call Party Sig))} {l : Ledger Party Sig}

def OneChannel (h : List (Entry (Ledger Party Sig) (Call Party Sig))) (l : Ledger Party Sig) :
    Prop :=
  ∀ x ∈ l.exitEvidence, ∀ e ∈ h, e.act.state.channelId = x.1.channelId

variable (K) in
/-- Every listed signature is one over the reported state. -/
def AllSigned (l : Ledger Party Sig) : Prop :=
  ∀ x ∈ l.exitEvidence, ∀ p, ∀ σ ∈ x.2.2 p, K.recover (canonicalStateMessage x.1) σ = some p

variable (K) in
def Countersignable (h : List (Entry (Ledger Party Sig) (Call Party Sig))) (l : Ledger Party Sig) :
    Prop :=
  ∀ e ∈ h.head?, ∀ q ∈ l.parties, q ≠ e.act.signer → ∀ σ,
    K.recover (canonicalStateMessage e.act.state) σ = some q →
      (l.apply K ⟨e.act.state, σ, q⟩).isSome

def SameChannel (e : Entry (Ledger Party Sig) (Call Party Sig)) : Prop :=
  ∀ s ∈ e.pre.latest, e.act.state.channelId = s.channelId

def SameText (e : Entry (Ledger Party Sig) (Call Party Sig)) : Prop :=
  ∀ s ∈ e.pre.latest, (∃ p ≠ e.act.signer, (e.pre.signatures p).isSome) →
    canonicalStateMessage e.act.state = canonicalStateMessage s

structure Ledger.Sound (h : List (Entry (Ledger Party Sig) (Call Party Sig)))
    (l : Ledger Party Sig) : Prop where
  parties : ∃ p q, p ≠ q ∧ l.parties = [p, q]
  latest : l.latest = h.head?.map (·.act.state)
  seq : ∀ s ∈ l.latest, l.latestSeq = s.seq
  unsigned : l.latest = none → ∀ p, l.signatures p = none

theorem Ledger.sound (hr : Ledger.Reach K h l) : l.Sound h := by
  refine hr.invariant ?_ fun h l c l' _ hl hs => ?_
  · rintro _ ⟨p, q, hne, rfl⟩
    exact ⟨⟨p, q, hne, rfl⟩, rfl, by simp, fun _ _ => rfl⟩
  · simp only [Ledger.apply, guarded_iff] at hs
    obtain ⟨-, rfl⟩ := hs
    exact ⟨hl.parties, rfl, by simp, by simp⟩

theorem oneChannel_iff (hr : Ledger.Reach K h l) :
    Throughout OneChannel h l ↔ ∀ e ∈ h, SameChannel e := by
  refine (hr.throughout_iff (J := OneChannel) (C := fun _ => SameChannel) (H := fun _ => True)
    (fun _ _ _ => trivial) (fun _ _ _ _ _ he => absurd he List.not_mem_nil) ?_ (fun _ _ h => h) ?_
    trivial).trans each_iff
  · intro h l c l' hr _ hP hs hC
    simp only [Ledger.apply, guarded_iff] at hs
    obtain ⟨-, rfl⟩ := hs
    rintro _ ⟨⟩ e he
    rcases List.mem_cons.mp he with rfl | he
    · rfl
    · -- there is a latest state, as there is an entry
      obtain ⟨s, hs⟩ : ∃ s, l.latest = some s := by
        rw [(Ledger.sound hr).latest]
        cases h with
        | nil => cases he
        | cons e h => exact ⟨_, rfl⟩
      exact (hP _ (Option.mem_def.mpr (congrArg _ hs)) e he).trans (hC s hs).symm
  · intro h l c l' hr _ hs hP s hlatest
    simp only [Ledger.apply, guarded_iff] at hs
    obtain ⟨-, rfl⟩ := hs
    obtain ⟨e, he, rfl⟩ := Option.map_eq_some_iff.mp ((Ledger.sound hr).latest ▸ hlatest)
    exact (hP _ rfl e (List.mem_cons_of_mem _ (List.mem_of_mem_head? he))).symm

theorem allSigned_iff (hr : Ledger.Reach K h l) :
    Throughout (fun _ => AllSigned K) h l ↔ ∀ e ∈ h, SameText e := by
  refine hr.throughout_iff_step ?_ fun h l c l' hr hP hs => ?_
  · rintro _ ⟨p, q, -, rfl⟩ x hx
    cases hx
  simp only [Ledger.apply, guarded_iff] at hs
  obtain ⟨⟨-, hsigner, -⟩, rfl⟩ := hs
  constructor
  · rintro hP' s hs ⟨p, hp, hsome⟩
    obtain ⟨σ, hσ⟩ := Option.isSome_iff_exists.mp hsome
    refine K.unforgeable (hP' _ rfl p σ ?_) (hP _ (Option.mem_def.mpr (congrArg _ hs)) p σ hσ)
    exact (update_of_ne hp _ _).trans hσ
  · rintro hC _ ⟨⟩ p σ hσ
    by_cases hp : p = c.signer
    · subst hp
      obtain rfl : c.signature = σ := by simpa using hσ
      exact hsigner
    · have hσ : l.signatures p = some σ := (update_of_ne hp _ _).symm.trans hσ
      cases hs : l.latest with
      | none => simp [(Ledger.sound hr).unsigned hs p] at hσ
      | some s =>
        rw [hC s hs ⟨p, hp, by simp [hσ]⟩]
        exact hP _ (Option.mem_def.mpr (congrArg _ hs)) p σ hσ

theorem countersignable_iff (hr : Ledger.Reach K h l) :
    Throughout (Countersignable K) h l ↔ h = [] := by
  refine ⟨fun hP => ?_, fun hnil => hnil ▸ fun e he => by cases he⟩
  obtain ⟨⟨p, q, hne, hparties⟩, hlatest, hseq, -⟩ := Ledger.sound hr
  cases h with
  | nil => rfl
  | cons e h =>
    obtain ⟨r, hr, hother⟩ : ∃ r ∈ l.parties, r ≠ e.act.signer := by
      rcases eq_or_ne p e.act.signer with rfl | hp
      · exact ⟨q, by simp [hparties], hne.symm⟩
      · exact ⟨p, by simp [hparties], hp⟩
    have hsome := hP.last e rfl r hr hother _ (K.recover_sign r _)
    simp [Ledger.apply, hseq _ hlatest] at hsome

/-- **Exit evidence**: the reported state is one of the channel exactly if no state of another
channel is submitted, every listed signature is one over the reported state exactly if states of
both parties have one text, and a state can be countersigned only before one was accepted. -/
theorem exit_evidence_iff (hr : Ledger.Reach K h l) :
    (Throughout OneChannel h l ↔ ∀ e ∈ h, SameChannel e) ∧
    (Throughout (fun _ => AllSigned K) h l ↔ ∀ e ∈ h, SameText e) ∧
    (Throughout (Countersignable K) h l ↔ h = []) :=
  ⟨oneChannel_iff hr, allSigned_iff hr, countersignable_iff hr⟩

namespace Sample

def shown : Scheme ℕ (ℕ × Text) where
  recover m σ := if σ.2 = m then some σ.1 else none
  sign p m := (p, m)
  recover_sign _ _ := if_pos rfl
  unforgeable h h' := by grind

def signed (s : State) (p : ℕ) : Call ℕ (ℕ × Text) := ⟨s, (p, canonicalStateMessage s), p⟩

def openLedger : Ledger ℕ (ℕ × Text) := ⟨[0, 1], -1, none, fun _ => none⟩

def ledgerAfter (as : List (Call ℕ (ℕ × Text))) : Ledger ℕ (ℕ × Text) :=
  stateAfter (Ledger.apply shown) as openLedger

def ledgerHistory (as : List (Call ℕ (ℕ × Text))) :
    List (Entry (Ledger ℕ (ℕ × Text)) (Call ℕ (ℕ × Text))) :=
  record (Ledger.apply shown) as openLedger []

def crossed : List (Call ℕ (ℕ × Text)) :=
  [signed (channelState "c" 1 "h" [("p", "1")]) 0, signed (channelState "d" 2 "h" []) 1]

end Sample

theorem exit_evidence_sample :
    Throughout OneChannel (ledgerHistory (crossed.take 1)) (ledgerAfter (crossed.take 1)) ∧
      Throughout (fun _ => AllSigned shown) (ledgerHistory (crossed.take 1))
        (ledgerAfter (crossed.take 1)) := by
  have hr : Ledger.Reach shown (ledgerHistory (crossed.take 1)) (ledgerAfter (crossed.take 1)) :=
    .stateAfter (.start ⟨0, 1, by decide, rfl⟩)
  obtain ⟨hchannel, hsigned, -⟩ := exit_evidence_iff hr
  have hlatest : ∀ e ∈ ledgerHistory (crossed.take 1), e.pre.latest = none :=
    List.forall_mem_singleton.mpr rfl
  exact ⟨hchannel.mpr fun e he s hs => (by simp [hlatest e he] at hs),
    hsigned.mpr fun e he s hs => (by simp [hlatest e he] at hs)⟩

/-- **Evidence that does not verify**. -/
theorem stale_evidence : Ledger.Reach shown (ledgerHistory crossed) (ledgerAfter crossed) ∧
    ¬ OneChannel (ledgerHistory crossed) (ledgerAfter crossed) ∧
    ¬ AllSigned shown (ledgerAfter crossed) ∧
    ¬ Countersignable shown (ledgerHistory (crossed.take 1)) (ledgerAfter (crossed.take 1)) := by
  refine ⟨.stateAfter (.start ⟨0, 1, by decide, rfl⟩), fun h => ?_, fun h => ?_, fun h => ?_⟩
  · exact absurd (h _ rfl _ (List.mem_cons_of_mem _ List.mem_cons_self)) (by decide +kernel)
  · exact absurd (h _ rfl 0 _ rfl) (by decide +kernel)
  · exact absurd (h _ rfl 1 (by decide) (by decide) _ (shown.recover_sign 1 _)) (by decide +kernel)

end Karma.Settlement.Channel
