import Karma.Arith.Round
import Karma.Evm.Run
import Mathlib.Data.Char
import Mathlib.Data.List.Sort

/-! # Spending grants

`services/spending_grant.py`. A spend of an agent is checked against the grant that was read, and is
recorded after the order without another look. -/

namespace Karma.Spending

open Evm Arith

def eps : ℚ := 1 / 10 ^ 9

structure Grant where
  active : Bool
  expiresAt : Option ℕ
  perTxLimit : ℚ
  totalLimit : ℚ
  usedAmount : ℚ

/-- The check of one grant in `assert_spend_allowed`, on what was read. -/
def Grant.allows (g : Grant) (now : ℕ) (amount : ℚ) : Bool :=
  g.active && g.expiresAt.all (now ≤ ·) && amount ≤ g.perTxLimit + eps &&
    amount ≤ g.totalLimit - g.usedAmount + eps

/-- The condition of the `UPDATE` in `reserve_spend`. -/
def Grant.reserves (g : Grant) (now : ℕ) (amount : ℚ) : Bool :=
  0 < amount && g.active && g.expiresAt.all (now < ·) && amount - eps ≤ g.perTxLimit &&
    g.usedAmount + amount ≤ g.totalLimit + eps

def Grant.reduces (g : Grant) (now : ℕ) (limit : ℚ) : Bool :=
  g.active && g.expiresAt.all (now ≤ ·) && 0 < limit && limit < g.totalLimit - eps &&
    g.usedAmount - eps ≤ limit

structure Desk where
  grant : Grant
  checked : List ℚ
  outstanding : List ℚ
  reducing : List ℚ
  recorded : ℚ
  reserved : ℚ
  released : ℚ

inductive Desk.Act
  | check (now : ℕ) (amount : ℚ)
  | record (amount : ℚ)
  | reserve (now : ℕ) (amount : ℚ)
  | release (amount : ℚ)
  | readLimit (now : ℕ) (limit : ℚ)
  | reduce (limit : ℚ)

def Grant.use (g : Grant) (amount : ℚ) : Grant := { g with usedAmount := g.usedAmount + amount }

def Desk.step (s : Desk) : Desk.Act → Option Desk
  | .check now amount =>
    -- both routes refuse an amount that is not positive before they record it
    if 0 < amount ∧ s.grant.allows now amount then
      some { s with checked := amount :: s.checked }
    else none
  | .record amount =>
    if amount ∈ s.checked then
      some { s with
        grant := s.grant.use amount
        checked := s.checked.erase amount
        recorded := s.recorded + amount }
    else none
  | .reserve now amount =>
    if s.grant.reserves now amount then
      some { s with
        grant := s.grant.use amount
        outstanding := amount :: s.outstanding
        reserved := s.reserved + amount }
    else none
  | .release amount =>
    -- the event is written whether or not the row matched
    if amount ∈ s.outstanding then
      some { s with
        grant := if amount - eps ≤ s.grant.usedAmount then s.grant.use (-amount) else s.grant
        outstanding := s.outstanding.erase amount
        released := s.released + amount }
    else none
  | .readLimit now limit =>
    if s.grant.reduces now limit then some { s with reducing := limit :: s.reducing } else none
  | .reduce limit =>
    if limit ∈ s.reducing then
      some { s with
        grant := { s.grant with totalLimit := roundTo 6 limit }
        reducing := s.reducing.erase limit }
    else none

structure Desk.Fresh (s : Desk) : Prop where
  unused : s.grant.usedAmount = 0
  limit : 0 < s.grant.totalLimit
  idle : s.checked = [] ∧ s.outstanding = [] ∧ s.reducing = []
  zero : s.recorded = 0 ∧ s.reserved = 0 ∧ s.released = 0

abbrev Desk.Reach (h : List (Entry Desk Desk.Act)) (s : Desk) : Prop :=
  Run Desk.Fresh Desk.step h s

structure Desk.Capped (s : Desk) : Prop where
  lower : -eps ≤ s.grant.usedAmount
  upper : s.grant.usedAmount ≤ s.grant.totalLimit + eps
  balance : s.grant.usedAmount = s.recorded + s.reserved - s.released

structure Desk.Sound (s : Desk) : Prop where
  checked_pos : ∀ a ∈ s.checked, 0 < a
  outstanding_pos : ∀ a ∈ s.outstanding, 0 < a
  outstanding_sum : s.outstanding.sum = s.reserved - s.released
  recorded_nonneg : 0 ≤ s.recorded

theorem Desk.Sound.step {s s' : Desk} {a : Desk.Act} (hs : s.Sound) (h : s.step a = some s') :
    s'.Sound := by
  cases a <;> simp only [Desk.step, guarded_iff] at h <;> obtain ⟨hif, rfl⟩ := h
  case check now amount => exact { hs with checked_pos := List.forall_mem_cons.mpr ⟨hif.1, hs.1⟩ }
  case record amount =>
    exact { hs with
      checked_pos := fun a ha => hs.checked_pos a (List.mem_of_mem_erase ha)
      recorded_nonneg := add_nonneg hs.recorded_nonneg (hs.checked_pos _ hif).le }
  case reserve now amount =>
    simp only [Grant.reserves, Bool.and_eq_true, decide_eq_true_eq] at hif
    exact { hs with
      outstanding_pos := List.forall_mem_cons.mpr ⟨hif.1.1.1.1, hs.outstanding_pos⟩
      outstanding_sum := by rw [List.sum_cons, hs.outstanding_sum]; ring }
  case release amount =>
    have hsum := List.sum_erase hif
    exact { hs with
      outstanding_pos := fun a ha => hs.outstanding_pos a (List.mem_of_mem_erase ha)
      outstanding_sum := by dsimp only; linarith [hs.outstanding_sum] }
  case readLimit now limit => exact { hs with }
  case reduce limit => exact { hs with }

theorem Desk.Sound.le_used {s : Desk} (hs : s.Sound) (hc : s.Capped) {amount : ℚ}
    (ha : amount ∈ s.outstanding) : amount ≤ s.grant.usedAmount := by
  have hsum := List.sum_erase ha
  have hrest : 0 ≤ (s.outstanding.erase amount).sum :=
    List.sum_nonneg fun a ha => (hs.outstanding_pos a (List.mem_of_mem_erase ha)).le
  linarith [hc.balance, hs.outstanding_sum, hs.recorded_nonneg]

/-- The step leaves room: a spend is recorded within the limit of the row as it is then, and a limit
is not put below what is used by then. -/
def Fits (e : Entry Desk Desk.Act) : Prop :=
  match e.act with
  | .record amount => e.pre.grant.usedAmount + amount ≤ e.pre.grant.totalLimit + eps
  | .reduce limit => e.pre.grant.usedAmount ≤ roundTo 6 limit + eps
  | _ => True

instance (e : Entry Desk Desk.Act) : Decidable (Fits e) := by
  unfold Fits
  split <;> infer_instance

/-- **The cap of a grant.** In every state of a run the used amount is within the limit and is what
was recorded and reserved less what was released, exactly if every record and every reduction fits
the row it finds. -/
theorem grant_capped_iff {h : List (Entry Desk Desk.Act)} {s : Desk} (hr : Desk.Reach h s) :
    Throughout (fun _ s => s.Capped) h s ↔ ∀ e ∈ h, Fits e := by
  refine hr.throughout_iff_step ?_ ?_
  · rintro s ⟨h0, hpos, -, h1, h2, h3⟩
    refine ⟨?_, ?_, ?_⟩ <;> rw [h0] <;> norm_num [eps, h1, h2, h3]
    linarith
  intro h s a s' hr hc hstep
  have hs : s.Sound := by
    refine hr.safe (fun s h0 => ?_) fun s a s' => Desk.Sound.step
    obtain ⟨-, -, ⟨h1, h2, -⟩, h3, h4, h5⟩ := h0
    exact ⟨by simp [h1], by simp [h2], by simp [h2, h4, h5], h3.ge⟩
  have heps : 0 < eps := by norm_num [eps]
  obtain ⟨hlower, hupper, hbalance⟩ := hc
  cases a <;> simp only [Desk.step, guarded_iff] at hstep <;> obtain ⟨hif, rfl⟩ := hstep
  case check now amount => exact iff_of_true ⟨hlower, hupper, hbalance⟩ trivial
  case record amount =>
    have hpos := hs.checked_pos _ hif
    refine ⟨fun h => h.upper, fun h => ⟨?_, h, ?_⟩⟩ <;> simp only [Grant.use] <;> linarith
  case reserve now amount =>
    simp only [Grant.reserves, Bool.and_eq_true, decide_eq_true_eq] at hif
    refine iff_of_true ⟨?_, hif.2, ?_⟩ trivial <;> simp only [Grant.use] <;> linarith [hif.1.1.1.1]
  case release amount =>
    have hpos := hs.outstanding_pos _ hif
    have hle := hs.le_used ⟨hlower, hupper, hbalance⟩ hif
    rw [if_pos (by linarith)]
    refine iff_of_true ⟨?_, ?_, ?_⟩ trivial <;> simp only [Grant.use] <;> linarith
  case readLimit now limit => exact iff_of_true ⟨hlower, hupper, hbalance⟩ trivial
  case reduce limit => exact ⟨fun h => h.upper, fun h => ⟨hlower, h, hbalance⟩⟩

namespace Sample

def granted : Desk := ⟨⟨true, none, 10, 10, 0⟩, [], [], [], 0, 0, 0⟩

def deskHistory (as : List Desk.Act) : List (Entry Desk Desk.Act) := record Desk.step as granted []

def deskAfter (as : List Desk.Act) : Desk := stateAfter Desk.step as granted

theorem reach_desk (as : List Desk.Act) (hsome : (steps Desk.step as granted).isSome = true) :
    Desk.Reach (deskHistory as) (deskAfter as) :=
  Run.stateAfter (.start ⟨rfl, by norm_num [granted], ⟨rfl, rfl, rfl⟩, rfl, rfl, rfl⟩) hsome

def orderly : List Desk.Act := [.reserve 0 7, .release 7, .check 0 6, .record 6]

end Sample

open Sample

theorem grant_capped_sample : (deskAfter orderly).grant.usedAmount = 6 ∧
      Throughout (fun _ s => s.Capped) (deskHistory orderly) (deskAfter orderly) :=
  ⟨by decide +kernel, (grant_capped_iff (reach_desk orderly (by decide +kernel))).mpr
    (by decide +kernel)⟩

/-- **Two spends against one read**. -/
theorem overspent : Desk.Reach (deskHistory [.check 0 8, .check 0 7, .record 8, .record 7])
      (deskAfter [.check 0 8, .check 0 7, .record 8, .record 7]) ∧
    ¬ (deskAfter [.check 0 8, .check 0 7, .record 8, .record 7]).Capped ∧
    ¬ (deskAfter [.readLimit 0 1, .reserve 0 8, .reduce 1]).Capped :=
  ⟨reach_desk _ (by decide +kernel),
    fun h => absurd h.upper (by decide +kernel), fun h => absurd h.upper (by decide +kernel)⟩

/-! ## The text that the owner signs -/

abbrev Text := List Char

/-- The characters that `str.strip` takes off. -/
def isSpace (c : Char) : Bool :=
  (9 ≤ c.toNat && c.toNat ≤ 13) || (28 ≤ c.toNat && c.toNat ≤ 32) ||
    (0x2000 ≤ c.toNat && c.toNat ≤ 0x200a) ||
    c.toNat ∈ [0x85, 0xa0, 0x1680, 0x2028, 0x2029, 0x202f, 0x205f, 0x3000]

def strip (t : Text) : Text := ((t.dropWhile isSpace).reverse.dropWhile isSpace).reverse

/-- How a number is written: different numbers differently, and on one line. -/
structure NumberText (N : Type) where
  text : N → Text
  injective : Function.Injective text
  oneLine : ∀ n, '\n' ∉ text n

/-- The arguments of `build_grant_message`. -/
structure Terms (N : Type) where
  grantId : Text
  walletAddress : Text
  agentId : Text
  agentPublicKey : Option Text
  currency : Text
  tokenAddress : Option Text
  totalLimit : N
  perTxLimit : N
  purposeScope : List Text
  expiresAt : Option Text
  nonce : Text

def Terms.expiry {N : Type} (t : Terms N) : Option Text :=
  t.expiresAt.bind fun e => if strip e = [] then none else some (strip e)

def line (key : String) (value : Text) : Text := key.toList ++ ':' :: value

variable {N : Type} (num : NumberText N)

def Terms.lines (t : Terms N) : List Text :=
  ["Karma Spending Grant".toList, line "grant_id" t.grantId, line "wallet_address" t.walletAddress,
    line "agent_id" t.agentId,
    line "agent_public_key" (t.agentPublicKey.getD []),
    line "currency" t.currency,
    line "token_address" (t.tokenAddress.getD []),
    line "total_limit" (num.text t.totalLimit),
    line "per_tx_limit" (num.text t.perTxLimit),
    line "purpose_scope" ([','].intercalate (t.purposeScope.insertionSort (· ≤ ·))),
    line "expires_at" (t.expiry.getD "never".toList),
    line "nonce" t.nonce]

def buildGrantMessage (t : Terms N) : Text := ['\n'].intercalate (t.lines num)

/-- The same parties, limits, purposes, expiry and nonce. -/
structure Terms.SameRights (t t' : Terms N) : Prop where
  grantId : t.grantId = t'.grantId
  walletAddress : t.walletAddress = t'.walletAddress
  agentId : t.agentId = t'.agentId
  agentPublicKey : t.agentPublicKey.getD [] = t'.agentPublicKey.getD []
  currency : t.currency = t'.currency
  tokenAddress : t.tokenAddress.getD [] = t'.tokenAddress.getD []
  totalLimit : t.totalLimit = t'.totalLimit
  perTxLimit : t.perTxLimit = t'.perTxLimit
  purposeScope : t.purposeScope.Perm t'.purposeScope
  expiry : t.expiry = t'.expiry
  nonce : t.nonce = t'.nonce

/-- No field breaks its line, no purpose has a comma or is the empty text alone, and no expiry is
the word for none. -/
structure Terms.Plain (t : Terms N) : Prop where
  oneLine : ∀ x ∈ [t.grantId, t.walletAddress, t.agentId, t.agentPublicKey.getD [], t.currency,
    t.tokenAddress.getD [], t.expiry.getD [], t.nonce] ++ t.purposeScope, '\n' ∉ x
  noComma : ∀ x ∈ t.purposeScope, ',' ∉ x
  purposes : t.purposeScope ≠ [[]]
  expiry : t.expiry ≠ some "never".toList

theorem mem_intercalate {x c : Char} {ls : List Text} (h : c ∈ [x].intercalate ls) :
    c = x ∨ ∃ l ∈ ls, c ∈ l := by
  induction ls with
  | nil => simp [List.intercalate] at h
  | cons l ls ih =>
    cases ls with
    | nil => exact Or.inr ⟨l, by simpa [List.intercalate] using h⟩
    | cons l' ls =>
      simp only [List.intercalate, List.intersperse_cons_cons, List.flatten_cons,
        List.mem_append, List.mem_singleton] at h ih
      rcases h with h | h | h
      · exact Or.inr ⟨l, List.mem_cons_self, h⟩
      · exact Or.inl h
      · exact (ih h).imp_right fun ⟨l, hl, hc⟩ => ⟨l, List.mem_cons_of_mem _ hl, hc⟩

theorem Terms.Plain.lines {t : Terms N} (ht : t.Plain) : ∀ l ∈ t.lines num, '\n' ∉ l := by
  have hscope : '\n' ∉ [','].intercalate (t.purposeScope.insertionSort (· ≤ ·)) := fun h => by
    rcases mem_intercalate h with h | ⟨l, hl, hc⟩
    · cases h
    · exact ht.oneLine l (by simp [(List.mem_insertionSort _).mp hl]) hc
  have hexpiry : '\n' ∉ t.expiry.getD "never".toList := by
    have := ht.oneLine (t.expiry.getD []) (by simp)
    cases h : t.expiry <;> simp_all
  have h := ht.oneLine
  simp only [List.cons_append, List.nil_append, List.forall_mem_cons] at h
  simpa [Terms.lines, line, h, hscope, num.oneLine] using hexpiry

theorem eq_of_intercalate {x : Char} {ps qs : List Text} (hp : ∀ l ∈ ps, x ∉ l)
    (hq : ∀ l ∈ qs, x ∉ l) (hp' : ps ≠ [[]]) (hq' : qs ≠ [[]])
    (h : [x].intercalate ps = [x].intercalate qs) : ps = qs := by
  -- no text and one empty text are joined to the same
  cases ps with
  | nil =>
    cases qs with
    | nil => rfl
    | cons q qs =>
      have hsplit := List.splitOn_intercalate x hq (by simp)
      rw [← h] at hsplit
      exact absurd hsplit.symm hq'
  | cons p ps =>
    have hsplit := List.splitOn_intercalate x hp (by simp)
    rw [h] at hsplit
    cases qs with
    | nil => exact absurd hsplit.symm hp'
    | cons q qs => exact hsplit.symm.trans (List.splitOn_intercalate x hq (by simp))

theorem Terms.Plain.sorted {t : Terms N} (ht : t.Plain) :
    (∀ x ∈ t.purposeScope.insertionSort (· ≤ ·), ',' ∉ x) ∧
      t.purposeScope.insertionSort (· ≤ ·) ≠ [[]] := by
  have hperm := List.perm_insertionSort (· ≤ ·) t.purposeScope
  refine ⟨fun x hx => ht.noComma x (hperm.mem_iff.mp hx), fun h => ht.purposes ?_⟩
  rw [h] at hperm
  exact List.perm_singleton.mp hperm.symm

/-- **The text determines the grant** for plain terms. -/
theorem grant_message_injective {t t' : Terms N} (ht : t.Plain) (ht' : t'.Plain)
    (h : buildGrantMessage num t = buildGrantMessage num t') : t.SameRights t' := by
  have hlines : t.lines num = t'.lines num := by
    rw [← List.splitOn_intercalate '\n' (ht.lines num) (by simp [Terms.lines]),
      ← List.splitOn_intercalate '\n' (ht'.lines num) (by simp [Terms.lines])]
    exact congrArg _ h
  simp only [Terms.lines, line, List.cons.injEq, List.append_cancel_left_eq, true_and,
    and_true] at hlines
  obtain ⟨hid, hwallet, hagent, hkey, hcurrency, htoken, htotal, hper, hscope, hexpiry, hnonce⟩ :=
    hlines
  have hsorted := eq_of_intercalate ht.sorted.1 ht'.sorted.1 ht.sorted.2 ht'.sorted.2 hscope
  refine ⟨hid, hwallet, hagent, hkey, hcurrency, htoken, num.injective htotal, num.injective hper,
    ?_, ?_, hnonce⟩
  · exact (List.perm_insertionSort (· ≤ ·) t.purposeScope).symm.trans
      (hsorted ▸ List.perm_insertionSort (· ≤ ·) t'.purposeScope)
  · have hne := ht.expiry
    have hne' := ht'.expiry
    cases he : t.expiry <;> cases he' : t'.expiry <;> simp_all

namespace Sample

def one : NumberText Unit := ⟨fun _ => "1.0".toList, fun _ _ _ => rfl, fun _ => by decide⟩

def terms (currency token : String) (purposes : List String) : Terms Unit :=
  ⟨"g".toList, "w".toList, "a".toList, none, currency.toList, some token.toList, (), (),
    purposes.map String.toList, none, "n".toList⟩

end Sample

theorem grant_message_injective_sample : buildGrantMessage one (terms "USDC" "t" ["b", "a"]) =
        buildGrantMessage one (terms "USDC" "t" ["a", "b"]) ∧
      (terms "USDC" "t" ["b", "a"]).SameRights (terms "USDC" "t" ["a", "b"]) :=
  ⟨by decide +kernel, grant_message_injective one
    ⟨by decide +kernel, by decide +kernel, by decide +kernel, by decide +kernel⟩
    ⟨by decide +kernel, by decide +kernel, by decide +kernel, by decide +kernel⟩
    (by decide +kernel)⟩

/-- One purpose with a comma reads like two, and a line break moves text between fields. -/
theorem grant_message_ambiguous : (buildGrantMessage one (terms "USDC" "t" ["a,b"]) =
        buildGrantMessage one (terms "USDC" "t" ["a", "b"]) ∧
      ¬ (terms "USDC" "t" ["a,b"]).SameRights (terms "USDC" "t" ["a", "b"])) ∧
    buildGrantMessage one (terms "USDC\ntoken_address:t" "u" []) =
        buildGrantMessage one (terms "USDC" "t\ntoken_address:u" []) ∧
      ¬ (terms "USDC\ntoken_address:t" "u" []).SameRights (terms "USDC" "t\ntoken_address:u" []) :=
  ⟨⟨by decide +kernel, fun h => absurd h.purposeScope.length_eq (by decide)⟩, by decide +kernel,
    fun h => absurd h.currency (by decide)⟩

end Karma.Spending
