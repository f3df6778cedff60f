import Karma.Spending.Grant

/-! # Identities and their Telegram accounts

`services/identity_gateway/store.py` and the route `telegram_bind`. -/

namespace Karma.MiniApp.Identities

open Evm Function
open Spending (Text)

/-- `KarmaIdentity`: what is fixed at its creation. -/
structure Ident where
  id : ℕ
  wallet : Text
  invite : Text
  parent : Option ℕ

/-- The identities, the newest first, with their accounts and codes, and the lookup tables. -/
structure Store where
  idents : List Ident
  telegram : ℕ → Option ℤ
  twofa : ℕ → Text
  byWallet : Text → Option ℕ
  byInvite : Text → Option ℕ
  byTg : ℤ → Option ℕ

def Store.get (s : Store) (i : ℕ) : Option Ident := s.idents.find? (·.id = i)

/-- The table that `_load` builds: an identity overwrites the older ones. -/
def rebuilt {κ : Type} [DecidableEq κ] (key : Ident → Option κ) (xs : List Ident) (k : κ) :
    Option ℕ :=
  (xs.find? (key · = some k)).map Ident.id

def Store.effective (s : Store) (t : ℤ) : Option Ident :=
  (s.byTg t).bind fun i => (s.get i).map fun x => (x.parent.bind s.get).getD x

def Store.add (s : Store) (x : Ident) : Store :=
  { s with
    idents := x :: s.idents
    byWallet := update s.byWallet x.wallet (some x.id)
    byInvite := update s.byInvite x.invite (some x.id) }

def Store.link (s : Store) (t : ℤ) (i : ℕ) : Store :=
  { s with
    telegram := update s.telegram i (some t)
    byTg := update s.byTg t (some i) }

inductive Act
  | create (wallet : Text) (id : ℕ) (invite : Text)
  | sub (parent : ℕ) (wallet : Text) (id : ℕ) (invite : Text)
  | seed (id : ℕ) (wallet : Text) (twofa invite : Text)
  | bind (t : ℤ) (i : ℕ) (signedIn : Option ℕ)
  | bind2fa (t : ℤ) (i : ℕ) (code : Text)

/-- The operations, with the random ids and invite codes as inputs. -/
def Store.step (s : Store) : Act → Option Store
  | .create w id invite =>
    if (s.byWallet w).bind s.get ≠ none then some s
    else if s.get id ≠ none then none
    else some (s.add ⟨id, w, invite, none⟩)
  | .sub parent w id invite =>
    match s.get parent with
    | some p =>
      if s.get id ≠ none ∨ p.parent ≠ none ∨ s.byWallet w ≠ none ∨
          2 ≤ s.idents.countP (·.parent = some parent) then none
      else some (s.add ⟨id, w, invite, some parent⟩)
    | none => none
  | .seed id w twofa invite =>
    let s := { s with twofa := update s.twofa id twofa }
    some (if s.get id ≠ none then s else s.add ⟨id, w, invite, none⟩)
  | .bind t i _ =>
    if s.get i ≠ none ∧ (s.byTg t = none ∨ s.byTg t = some i) then some (s.link t i) else none
  | .bind2fa t i code =>
    if s.get i ≠ none ∧ s.twofa i ≠ [] ∧ s.twofa i = code then
      -- the identity that had the account loses it
      let telegram := match s.byTg t with
        | some prev => update s.telegram prev none
        | none => s.telegram
      some ({ s with telegram := telegram, twofa := update s.twofa i [] }.link t i)
    else none

def Store.empty : Store :=
  ⟨[], fun _ => none, fun _ => [], fun _ => none, fun _ => none, fun _ => none⟩

def Store.Fresh (s : Store) : Prop := s = .empty

abbrev Reach := Run Store.Fresh Store.step

/-- **The tables are right**: an account acts for the identity that carries it, for no identity does
a second one, and the tables are those that `_load` builds. -/
structure Store.Sound (s : Store) : Prop where
  carried : ∀ t y, s.effective t = some y → ∃ x ∈ s.idents, s.byTg t = some x.id ∧
    s.telegram x.id = some t ∧ (y = x ∨ x.parent = some y.id)
  single : ∀ t t' i, s.byTg t = some i → s.byTg t' = some i → t = t'
  wallets : s.byWallet = rebuilt (some ·.wallet) s.idents
  invites : s.byInvite = rebuilt (some ·.invite) s.idents
  telegrams : s.byTg = rebuilt (s.telegram ·.id) s.idents

def Consented (e : Entry Store Act) : Prop :=
  match e.act with
  | .bind _ i signedIn => signedIn = some i
  | .bind2fa _ i code => e.pre.twofa i = code ∧ code ≠ []
  | _ => True

/-- A binding of an identity that no other account is bound to. -/
def Unbound (e : Entry Store Act) : Prop :=
  match e.act with
  | .bind t i _ | .bind2fa t i _ => e.pre.telegram i = none ∨ e.pre.telegram i = some t
  | _ => True

theorem rebuilt_cons {κ : Type} [DecidableEq κ] (key : Ident → κ) (x : Ident) (xs : List Ident) :
    rebuilt (some <| key ·) (x :: xs) =
      update (rebuilt (some <| key ·) xs) (key x) (some x.id) := by
  funext k
  by_cases hk : k = key x
  · simp [rebuilt, hk]
  · simp [rebuilt, update_of_ne hk, Ne.symm hk]

/-- **The bindings are one to one**. -/
structure Store.Linked (s : Store) : Prop where
  wallets : s.byWallet = rebuilt (some ·.wallet) s.idents
  invites : s.byInvite = rebuilt (some ·.invite) s.idents
  carried : ∀ t i, s.byTg t = some i ↔ s.telegram i = some t
  known : ∀ t i, s.byTg t = some i → ∃ x ∈ s.idents, x.id = i

variable {s s' : Store} {t : ℤ} {i : ℕ} {x : Ident} {a : Act}

theorem mem_of_get (hx : s.get i = some x) : x ∈ s.idents ∧ x.id = i :=
  ⟨List.mem_of_find?_eq_some hx, by simpa using List.find?_some hx⟩

theorem Store.Linked.sound (hs : s.Linked) : s.Sound where
  carried t y hy := by
    obtain ⟨i, hi, hbound⟩ := Option.bind_eq_some_iff.mp hy
    obtain ⟨x, hx, rfl⟩ := Option.map_eq_some_iff.mp hbound
    obtain ⟨hmem, rfl⟩ := mem_of_get hx
    refine ⟨x, hmem, hi, (hs.carried t _).mp hi, ?_⟩
    cases hp : x.parent.bind s.get with
    | none => exact .inl rfl
    | some m =>
      obtain ⟨p, hparent, hm⟩ := Option.bind_eq_some_iff.mp hp
      exact .inr (by rw [hparent, Option.getD_some, (mem_of_get hm).2])
  single t t' i ht ht' :=
    Option.some.inj (((hs.carried t i).mp ht).symm.trans ((hs.carried t' i).mp ht'))
  wallets := hs.wallets
  invites := hs.invites
  telegrams := by
    funext t
    cases hfind : s.idents.find? (s.telegram ·.id = some t) with
    | some x =>
      have hx : s.telegram x.id = some t := by simpa using List.find?_some hfind
      simp [rebuilt, hfind, (hs.carried t x.id).mpr hx]
    | none =>
      simp only [rebuilt, hfind, Option.map_none]
      refine Option.eq_none_iff_forall_ne_some.mpr fun i hi => ?_
      obtain ⟨x, hx, rfl⟩ := hs.known t i hi
      simpa [(hs.carried t x.id).mp hi] using List.find?_eq_none.mp hfind x hx

theorem Store.Linked.add (hs : s.Linked) (x : Ident) : (s.add x).Linked where
  wallets := by rw [Store.add, hs.wallets]; exact (rebuilt_cons Ident.wallet x s.idents).symm
  invites := by rw [Store.add, hs.invites]; exact (rebuilt_cons Ident.invite x s.idents).symm
  carried := hs.carried
  known t i hi := (hs.known t i hi).imp fun _ h => ⟨List.mem_cons_of_mem _ h.1, h.2⟩

theorem Store.Linked.step (hs : s.Linked) (hstep : s.step a = some s') (hC : Unbound ⟨s, a, s'⟩) :
    s'.Linked := by
  have hcarried := hs.carried
  have hknown := hs.known
  have hget : ∀ i, s.get i ≠ none → ∃ x ∈ s.idents, x.id = i := fun i hi => by
    obtain ⟨x, hx⟩ := Option.ne_none_iff_exists'.mp hi
    exact ⟨x, mem_of_get hx⟩
  cases a with
  | create w id invite | sub parent w id invite => grind [Store.step, Store.Linked.add]
  | seed id w twofa invite =>
    have : ({ s with twofa := update s.twofa id twofa } : Store).Linked :=
      ⟨hs.wallets, hs.invites, hs.carried, hs.known⟩
    grind [Store.step, Store.Linked.add]
  | bind t i signedIn =>
    simp only [Store.step] at hstep
    split_ifs at hstep with hok
    cases hstep
    refine ⟨hs.wallets, hs.invites, fun t' j => ?_, fun t' j => ?_⟩ <;>
      simp only [Store.link, update_apply] <;> grind [Unbound]
  | bind2fa t i code =>
    simp only [Store.step] at hstep
    split_ifs at hstep with hok
    cases hstep
    refine ⟨hs.wallets, hs.invites, fun t' j => ?_, fun t' j => ?_⟩ <;>
      cases hprev : s.byTg t <;> simp only [Store.link, update_apply] <;> grind [Unbound]

theorem unbound_of_sound (hs : s.Linked) (hstep : s.step a = some s') (hs' : s'.Sound) :
    Unbound ⟨s, a, s'⟩ := by
  cases a with
  | bind t i _ | bind2fa t i _ =>
    simp only [Store.step] at hstep
    split_ifs at hstep
    cases hstep
    cases ht : s.telegram i with
    | none => exact .inl ht
    | some t' =>
      by_contra hne
      obtain ⟨-, hne⟩ : ¬ s.telegram i = none ∧ ¬ s.telegram i = some t := not_or.mp hne
      have hne : t' ≠ t := by rintro rfl; exact hne ht
      refine hne (hs'.single t' t i ?_ (update_self ..))
      exact (update_of_ne hne ..).trans ((hs.carried t' i).mpr ht)
  | _ => trivial

/-- The tables are right throughout exactly if no identity is bound to a second account. -/
theorem telegram_acts_iff {h : List (Entry Store Act)} (hr : Reach h s) :
    (Throughout (fun _ s => s.Sound) h s ↔ ∀ e ∈ h, Unbound e) ∧ ((∀ e ∈ h, Consented e) ↔
        ∀ e ∈ h, ∀ t i signedIn, e.act = .bind t i signedIn → signedIn = some i) := by
  constructor
  · refine (hr.throughout_iff_inv (J := fun _ s => s.Linked) (C := fun _ e => Unbound e)
      (H := fun _ => True) (fun _ _ _ => trivial) (fun s h0 => ?_)
      (fun _ _ _ _ _ _ hs hstep hC => hs.step hstep hC) (fun _ _ hs => hs.sound)
      (fun _ _ _ _ _ hs hstep hs' => unbound_of_sound hs hstep hs') trivial).trans each_iff
    obtain rfl : s = .empty := h0
    constructor <;> simp [Store.empty] <;> rfl
  · refine forall₂_congr fun e he => ?_
    obtain ⟨-, -, hstep⟩ := hr.of_mem he
    obtain ⟨pre, act, post⟩ := e
    cases act <;> grind [Store.step, Consented]

namespace Sample

def actAfter (as : List Act) := stateAfter Store.step as .empty

def actHistory (as : List Act) := record Store.step as .empty []

def coded : List Act := [.seed 1 ['w'] ['c'] ['v'], .bind2fa 7 1 ['c']]

end Sample

open Identities.Sample in
theorem telegram_acts_sample : Throughout (fun _ s => s.Sound) (actHistory coded) (actAfter coded) ↔
      ∀ e ∈ actHistory coded, Unbound e :=
  (telegram_acts_iff (.stateAfter (.start (show Store.Fresh .empty from rfl)))).1

open Identities.Sample in
/-- Another account binds itself, without a session. -/
theorem telegram_taken_over :
    let as := coded ++ [.bind 8 1 none]
    Reach (actHistory as) (actAfter as) ∧ ¬ (∀ e ∈ actHistory as, Consented e) ∧
      (actAfter as).byTg 7 = some 1 ∧ (actAfter as).byTg 8 = some 1 ∧
      rebuilt ((actAfter as).telegram ·.id) (actAfter as).idents 7 = none := by
  refine ⟨.stateAfter (.start (show Store.Fresh .empty from rfl)), fun h => ?_,
    by decide +kernel⟩
  exact absurd (h _ List.mem_cons_self) (by simp [Consented])

end Karma.MiniApp.Identities
