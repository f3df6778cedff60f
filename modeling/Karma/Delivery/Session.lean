import Karma.Evm.Run

/-! # Delivery verification

`services/delivery_verification.py`. A session logs events and collects proofs, and `try_verify`
decides from both whether the delivery is verified. -/

namespace Karma.Delivery

open Evm

inductive Mode
  | physicalTriple
  | ticketStub
  | rideTrack
  | digitalLight
  deriving DecidableEq

inductive Status
  | created
  | awaitingSellerShip
  | awaitingLogisticsIntake
  | inTransit
  | wrongItem
  | awaitingBuyerReceipt
  | buyerConfirmed
  | buyerSilentDefault
  | rejected
  | verified
  deriving DecidableEq

inductive Event
  | sellerShipped
  | sellerIssuedConfirmation
  | sellerTripCompleted
  | sellerDeliveredDigital
  | logisticsIntakeOk
  | logisticsWrongItem
  | logisticsDelivered
  | executionReceiptSuccess
  | proofFieldsCovered
  | buyerConfirmed
  | buyerRejected
  | buyerSilentDefault
  | autoVerifiedDigital
  | proof (type : String)
  deriving DecidableEq

inductive Requirement
  | recipientAckOrSilent
  | proofFieldsCovered
  | executionReceiptSuccess
  | buyerExplicitAccept
  | proof (key : String)
  | event (kind : Event)

structure Challenge where
  partyRole : String
  nonce : String
  expiresAt : ℕ

structure Tag where
  nonce : String
  capturedAt : String
  geoHash : String
  tagHmac : String

structure Session where
  verificationId : String
  taskId : String
  mode : Mode
  seller : ℕ
  buyer : ℕ
  logistics : ℕ
  required : List Requirement
  /-- `buyer_silent_confirm_seconds`. -/
  silent : Option ℕ
  highRisk : Bool
  status : Status
  events : List Event
  proofs : List String
  challenges : List Challenge
  deadline : Option ℕ
  receiptOk : Bool
  fieldsOk : Bool

/-- The proofs that meet a requirement, in `_required_satisfied`. -/
def aliases : String → List String
  | "delivery_photo_tagged" => ["delivery_photo_tagged", "delivery_photo_or_code"]
  | "email_receipt_or_confirmation_code" => ["email_receipt", "confirmation_code", "booking_ref",
      "email_receipt_or_confirmation_code"]
  | "ticket_number_or_pnr" => ["ticket_number_hash", "pnr", "ticket_number_or_pnr"]
  | "email_receipt_ref" => ["email_receipt", "email_receipt_ref"]
  | "route_or_odometer" => ["route_or_odometer", "route_track_hash"]
  | "qa_or_quantity" => ["qa_report_hash", "quantity_accepted", "qa_or_quantity"]
  | "service_completion_ref" => ["service_completion_ref", "completion_code", "appointment_ack"]
  | "attendance_or_completion_ref" => ["attendance_or_completion_ref", "attendance_code",
      "certificate_ref"]
  | key => [key]

namespace Session

variable (s : Session)

def satisfies : Requirement → Bool
  | .recipientAckOrSilent => .buyerConfirmed ∈ s.events || .buyerSilentDefault ∈ s.events ||
      "recipient_ack" ∈ s.proofs
  | .proofFieldsCovered => true
  | .executionReceiptSuccess => .executionReceiptSuccess ∈ s.events || s.receiptOk
  | .buyerExplicitAccept => .buyerConfirmed ∈ s.events
  | .proof key => (aliases key).any fun a => a ∈ s.proofs || .proof a ∈ s.events
  | .event kind => kind ∈ s.events

def chainOk : Bool :=
  match s.mode with
  | .physicalTriple => .sellerShipped ∈ s.events && .logisticsIntakeOk ∈ s.events &&
      .logisticsDelivered ∈ s.events && s.status ≠ .wrongItem &&
      ("delivery_photo_tagged" ∈ s.proofs || "delivery_photo_or_code" ∈ s.proofs)
  | .rideTrack => .sellerTripCompleted ∈ s.events
  | .ticketStub => .sellerIssuedConfirmation ∈ s.events
  | .digitalLight => true

def digital : Bool := s.mode = .digitalLight || s.mode = .rideTrack

@[simp, grind]
def log (kind : Event) (status : Status) : Session :=
  { s with events := kind :: s.events, status }

def coverFields (covered : Bool) : Session :=
  { s with
    fieldsOk := covered
    events := if covered && .proofFieldsCovered ∉ s.events then .proofFieldsCovered :: s.events
      else s.events }

/-- What `try_verify` looks at, once the fields are compared. -/
def complete : Bool :=
  (!s.highRisk || .buyerConfirmed ∈ s.events) && s.required.all s.satisfies &&
    (.buyerConfirmed ∈ s.events || .buyerSilentDefault ∈ s.events ||
      s.digital && !s.highRisk && s.receiptOk && (s.fieldsOk || s.silent = some 0) ||
      s.mode = .ticketStub && .sellerIssuedConfirmation ∈ s.events && s.status = .buyerConfirmed)

def judged (covered : Bool) : Option Session :=
  if s.status = .verified ∨ s.status = .wrongItem then none
  else some (if s.digital && s.receiptOk then s.coverFields covered else s)

def tryVerify (covered : Bool) : Session :=
  match s.judged covered with
  | none => s
  | some s =>
    if s.complete then
      { s with
        status := .verified
        events := if .buyerConfirmed ∈ s.events ∨ .buyerSilentDefault ∈ s.events ∨ ¬ s.digital ∨
            .autoVerifiedDigital ∈ s.events then s.events else .autoVerifiedDigital :: s.events }
    else s

def lapsed (now : ℕ) : Bool :=
  s.status ∉ [Status.verified, .buyerConfirmed, .buyerSilentDefault, .wrongItem, .rejected] &&
    !s.highRisk && s.silent.any (0 < ·) && s.deadline.any (· < now) && s.chainOk

def sweep (now : ℕ) (covered : Bool) : Session :=
  if s.lapsed now then (s.log .buyerSilentDefault .buyerSilentDefault).tryVerify covered else s

variable (hmac : List String → String)

def verifyTag (now : ℕ) (role : String) (t : Tag) : Bool :=
  t.tagHmac = hmac [s.verificationId, s.taskId, role, t.nonce, t.capturedAt, t.geoHash] &&
    (s.challenges.find? fun c => c.nonce = t.nonce && c.partyRole = role).any (now ≤ ·.expiresAt)

end Session

/-- The arguments of `submit_proof`; the actor is stored and not checked. -/
structure Submission where
  proofType : String
  contentHash : String
  role : String
  tag : Option Tag

inductive Act
  | challenge (now : ℕ) (role nonce : String)
  | submit (now : ℕ) (p : Submission)
  | ship (now actor : ℕ) (ref : Bool)
  | intake (actor : ℕ) (itemMatches : Bool)
  | deliver (now actor : ℕ) (p : Submission)
  | receipt (ok : Bool)
  | coverFields (covered : Bool)
  | confirm (actor : ℕ) (answer covered : Bool)
  | sweep (now : ℕ) (covered : Bool)
  | tryVerify (covered : Bool)
  /-- `require_verified_for_settle`; its sweep may stop before this session. -/
  | gate (now : ℕ) (swept covered : Bool)

variable (hmac : List String → String)

def Session.submit (s : Session) (now : ℕ) (p : Submission) : Option Session :=
  if p.proofType ≠ "" ∧ 16 ≤ p.contentHash.length ∧
      ("_tagged".toList <:+ p.proofType.toList → p.tag.any (s.verifyTag hmac now p.role)) then
    some { s with
      proofs := p.proofType :: s.proofs
      events := .proof p.proofType :: s.events }
  else none

def Session.ship (s : Session) (now : ℕ) (ref : Bool) : Option Session :=
  match s.mode with
  | .physicalTriple =>
    if s.status = .awaitingSellerShip ∨ s.status = .created then
      some { s.log .sellerShipped .awaitingLogisticsIntake with
        proofs := if ref then "ship_ref" :: s.proofs else s.proofs }
    else none
  | .ticketStub => some (s.log .sellerIssuedConfirmation .awaitingBuyerReceipt)
  | .rideTrack => some { s.log .sellerTripCompleted .awaitingBuyerReceipt with
      deadline := if s.silent.any (0 < ·) then s.silent.map (now + ·) else s.deadline }
  | .digitalLight => some (s.log .sellerDeliveredDigital .awaitingBuyerReceipt)

def Session.step (s : Session) : Act → Option Session
  | .challenge now role nonce =>
    if role ∈ ["seller", "logistics", "buyer"] then
      some { s with challenges := s.challenges ++ [⟨role, nonce, now + 900⟩] }
    else none
  | .submit now p => s.submit hmac now p
  | .ship now actor ref => if actor = s.seller then s.ship now ref else none
  | .intake actor itemMatches =>
    if s.mode = .physicalTriple ∧ actor = s.logistics ∧ s.status = .awaitingLogisticsIntake then
      some (if itemMatches then s.log .logisticsIntakeOk .inTransit
        else s.log .logisticsWrongItem .wrongItem)
    else none
  | .deliver now actor p =>
    if s.mode = .physicalTriple ∧ actor = s.logistics ∧ s.status = .inTransit ∧
        .logisticsIntakeOk ∈ s.events then
      match s.submit hmac now { p with role := "logistics" } with
      | none => none
      | some s =>
        let silent := s.silent.getD 1800
        some { s.log .logisticsDelivered .awaitingBuyerReceipt with
          deadline := if 0 < silent then some (now + silent) else s.deadline }
    else none
  | .receipt ok => some { s with
      receiptOk := ok
      events := if ok then .executionReceiptSuccess :: s.events else s.events }
  | .coverFields covered => some (s.coverFields covered)
  | .confirm actor answer covered =>
    if actor ≠ s.buyer then none
    else if s.status = .verified ∨ s.status = .wrongItem then some s
    else if s.mode = .physicalTriple ∧ ¬ s.chainOk then none
    else some (if answer then (s.log .buyerConfirmed .buyerConfirmed).tryVerify covered
      else s.log .buyerRejected .rejected)
  | .sweep now covered => some (s.sweep now covered)
  | .tryVerify covered => some (s.tryVerify covered)
  | .gate now swept covered =>
    some ((if swept then s.sweep now covered else s).tryVerify covered)

structure Session.Fresh (s : Session) : Prop where
  status : s.status = if s.mode = .digitalLight then .created else .awaitingSellerShip
  parties : s.mode = .physicalTriple → s.logistics ≠ s.seller ∧ s.logistics ≠ s.buyer
  events : s.events = []
  proofs : s.proofs = []
  deadline : s.deadline = none
  flags : s.receiptOk = false ∧ s.fieldsOk = false

abbrev History := List (Entry Session Act)

abbrev Session.Reach (h : History) (s : Session) : Prop :=
  Run Session.Fresh (Session.step hmac) h s

/-! ## A rejection -/

variable {hmac} {h : History} {s s' : Session} {a : Act}

variable {c : Bool}

@[grind →]
theorem submit_eq {now : ℕ} {p : Submission} (hs : s.submit hmac now p = some s') : s' = { s with
      proofs := p.proofType :: s.proofs
      events := .proof p.proofType :: s.events } := by
  unfold Session.submit at hs
  split_ifs at hs
  exact (Option.some.inj hs).symm

theorem deliver_eq {now actor : ℕ} {p : Submission}
    (hs : s.step hmac (.deliver now actor p) = some s') :
    s.mode = .physicalTriple ∧ actor = s.logistics ∧ s.status = .inTransit ∧
      .logisticsIntakeOk ∈ s.events ∧
      ("_tagged".toList <:+ p.proofType.toList → p.tag.any (s.verifyTag hmac now "logistics")) ∧
      ∃ proofs deadline, (∀ n, s.silent = some n → 0 < n → deadline = some (now + n)) ∧
        s' = { s with
          status := .awaitingBuyerReceipt
          events := .logisticsDelivered :: .proof p.proofType :: s.events
          proofs, deadline } := by
  simp only [Session.step, Session.submit] at hs
  split_ifs at hs with hguard hproof
  obtain ⟨hmode, hactor, hstatus, hintake⟩ := hguard
  refine ⟨hmode, hactor, hstatus, hintake, hproof.2.2, _, _, ?_, (Option.some.inj hs).symm⟩
  intro n hn hpos
  simp [hn, hpos]

def Ships (e : Entry Session Act) : Prop := ∃ now ref, e.act = .ship now e.pre.seller ref

/-- The carrier accepts the item, after the seller has shipped. -/
def Accepts (h : History) (e : Entry Session Act) : Prop :=
  e.act = .intake e.pre.logistics true ∧ Sometime (fun _ => Ships) h

variable (hmac) in
def Delivers (now : ℕ) (h : History) (e : Entry Session Act) : Prop :=
  (∃ p t, e.act = .deliver now e.pre.logistics p ∧ p.proofType = "delivery_photo_tagged" ∧
    p.tag = some t ∧ e.pre.verifyTag hmac now "logistics" t) ∧ Sometime Accepts h

variable (hmac) in
def Concludes (h : History) (e : Entry Session Act) : Prop :=
  ∃ now, Sometime (Delivers hmac now) h ∧ ((∃ c, e.act = .confirm e.pre.buyer true c) ∨
      ∃ later n c, (e.act = .sweep later c ∨ e.act = .gate later true c) ∧
        e.pre.silent = some n ∧ now + n < later ∧ .buyerRejected ∉ e.pre.events)

def Tagged (e : Entry Session Act) : Prop :=
  ∃ now actor p, e.act = .deliver now actor p ∧ p.proofType = "delivery_photo_tagged"

variable (hmac) in
structure Session.Tracked (h : History) (s : Session) : Prop where
  mode : s.mode = .physicalTriple
  shipped : .sellerShipped ∈ s.events → Sometime (fun _ => Ships) h
  awaiting : s.status = .awaitingLogisticsIntake → .sellerShipped ∈ s.events
  accepted : .logisticsIntakeOk ∈ s.events → Sometime Accepts h
  once : .logisticsDelivered ∈ s.events →
    s.status ∉ [Status.created, .awaitingSellerShip, .awaitingLogisticsIntake, .inTransit]
  delivered : .logisticsDelivered ∈ s.events → Sometime (fun _ => Tagged) h → ∃ now,
    Sometime (Delivers hmac now) h ∧ ∀ n, s.silent = some n → 0 < n → s.deadline = some (now + n)
  answered : .buyerConfirmed ∈ s.events ∨ .buyerSilentDefault ∈ s.events ∨
    .buyerRejected ∈ s.events → .logisticsDelivered ∈ s.events
  rejected : .buyerRejected ∈ s.events → s.status ∈ [Status.rejected, .buyerConfirmed, .verified]
  concluded : .buyerConfirmed ∈ s.events ∨ .buyerSilentDefault ∈ s.events →
    Sometime (fun _ => Tagged) h → Sometime (Concludes hmac) h
  verified : s.status = .verified → .buyerConfirmed ∈ s.events ∨ .buyerSilentDefault ∈ s.events
  tagged : Sometime (fun _ => Tagged) h → .logisticsDelivered ∈ s.events

theorem Session.Tracked.tryVerify (hs : s.Tracked hmac h) : (s.tryVerify c).Tracked hmac h := by
  have hjudged : ∀ j ∈ s.judged c, j = s := fun j hj => by
    have hdigital : s.digital = false := by simp [Session.digital, hs.mode]
    simp only [Session.judged, hdigital] at hj
    grind
  unfold Session.tryVerify
  cases hj : s.judged c with
  | none => exact hs
  | some j =>
    obtain rfl := hjudged j hj
    dsimp only
    split_ifs with hcomplete hevents
    · have hor : .buyerConfirmed ∈ j.events ∨ .buyerSilentDefault ∈ j.events := by
        simp only [Session.complete, Session.digital, hs.mode] at hcomplete
        grind
      exact { hs with
        awaiting := by simp
        once := by simp
        rejected := by simp
        verified := fun _ => hor }
    · simp [Session.digital, hs.mode] at hevents
    · exact hs

variable {e : Entry Session Act}

theorem tagged_of_cons (he : ∀ now actor p, e.act ≠ .deliver now actor p) :
    Sometime (fun _ => Tagged) (e :: h) → Sometime (fun _ => Tagged) h := by
  rintro (⟨now, actor, p, hact, -⟩ | ht)
  · exact absurd hact (he now actor p)
  · exact ht

theorem Session.Tracked.cons (hs : s.Tracked hmac h)
    (he : ∀ now actor p, e.act ≠ .deliver now actor p) : s.Tracked hmac (e :: h) :=
  { hs with
    shipped := fun hk => .inr (hs.shipped hk)
    accepted := fun hk => .inr (hs.accepted hk)
    delivered := fun hk ht =>
      (hs.delivered hk (tagged_of_cons he ht)).imp fun _ h => ⟨.inr h.1, h.2⟩
    concluded := fun hk ht => .inr (hs.concluded hk (tagged_of_cons he ht))
    tagged := fun ht => hs.tagged (tagged_of_cons he ht) }

theorem Session.Tracked.frame (hs : s.Tracked hmac h)
    (hsame : s'.mode = s.mode ∧ s'.status = s.status ∧ s'.deadline = s.deadline ∧
      s'.silent = s.silent)
    (hevents : ∀ k ∈ [Event.sellerShipped, .logisticsIntakeOk, .logisticsDelivered,
      .buyerConfirmed, .buyerSilentDefault, .buyerRejected], k ∈ s'.events ↔ k ∈ s.events) :
    s'.Tracked hmac h := by
  simp only [List.forall_mem_cons] at hevents
  obtain ⟨h1, h2, h3, h4, h5, h6, -⟩ := hevents
  obtain ⟨hmode, hstatus, hdeadline, hsilent⟩ := hsame
  constructor <;> simp only [hmode, hstatus, hdeadline, hsilent, h1, h2, h3, h4, h5, h6]
  exacts [hs.mode, hs.shipped, hs.awaiting, hs.accepted, hs.once, hs.delivered, hs.answered,
    hs.rejected, hs.concluded, hs.verified, hs.tagged]

theorem Session.Tracked.early {k : Event} {status : Status} (hs : s.Tracked hmac h)
    (hstatus : s.status ∈ [Status.created, .awaitingSellerShip, .awaitingLogisticsIntake])
    (hk : k = .sellerShipped ∧ status = .awaitingLogisticsIntake ∧ Sometime (fun _ => Ships) h ∨
      k = .logisticsIntakeOk ∧ status = .inTransit ∧ Sometime Accepts h ∨
      k = .logisticsWrongItem ∧ status = .wrongItem) :
    (s.log k status).Tracked hmac h := by
  have hfirst : .logisticsDelivered ∉ s.events := fun hd => by
    have honce := hs.once hd
    grind
  obtain ⟨hmode, hshipped, hawait, hacc, -, hdel, hans, hrej, hcon, hver, htag⟩ := hs
  unfold Session.log
  constructor <;> grind

theorem Session.Tracked.answer {k : Event} {status : Status} (hs : s.Tracked hmac (e :: h))
    (hdelivered : .logisticsDelivered ∈ s.events)
    (hk : (k = .buyerConfirmed ∧ status = .buyerConfirmed ∨
        k = .buyerSilentDefault ∧ status = .buyerSilentDefault ∧ .buyerRejected ∉ s.events) ∧
          (Sometime (fun _ => Tagged) (e :: h) → Concludes hmac h e) ∨
      k = .buyerRejected ∧ status = .rejected) : (s.log k status).Tracked hmac (e :: h) := by
  obtain ⟨hmode, hshipped, -, haccepted, -, hdel, hans, hrej, hcon, -, htag⟩ := hs
  unfold Session.log
  constructor
  case concluded =>
    intro hk' ht
    rcases hk with ⟨-, hc⟩ | ⟨rfl, -⟩
    · exact .inl (hc ht)
    · exact hcon (by simpa using hk') ht
  all_goals grind

theorem Session.Tracked.sweep {now : ℕ} (ht : e.pre.Tracked hmac h)
    (hact : e.act = .sweep now c ∨ e.act = .gate now true c) :
    (e.pre.sweep now c).Tracked hmac (e :: h) := by
  have he : ∀ now actor p, e.act ≠ .deliver now actor p := by
    rcases hact with hact | hact <;> simp [hact]
  unfold Session.sweep
  split_ifs with hl
  · simp only [Session.lapsed, Session.chainOk, ht.mode, Bool.and_eq_true, decide_eq_true_eq] at hl
    obtain ⟨⟨⟨⟨hstatus, -⟩, hsilent⟩, hdeadline⟩, ⟨⟨⟨-, -⟩, hdelivered⟩, -⟩, -⟩ := hl
    have hrejected : .buyerRejected ∉ e.pre.events := fun hk => by
      have hmem := ht.rejected hk
      grind
    refine ((ht.cons he).answer hdelivered
      (.inl ⟨.inr ⟨rfl, rfl, hrejected⟩, fun htagged => ?_⟩)).tryVerify
    obtain ⟨start, hdel, hwindow⟩ := ht.delivered hdelivered (tagged_of_cons he htagged)
    cases hn : e.pre.silent with
    | none => simp [hn] at hsilent
    | some n =>
      rw [hwindow n hn (by simpa [hn] using hsilent)] at hdeadline
      exact ⟨start, hdel, .inr ⟨now, n, c, hact, hn, by simpa using hdeadline, hrejected⟩⟩
  · exact ht.cons he

theorem Session.Tracked.step (ht : s.Tracked hmac h) (hs : s.step hmac a = some s') :
    s'.Tracked hmac (⟨s, a, s'⟩ :: h) := by
  have hcons : (∀ now actor p, a ≠ .deliver now actor p) → s.Tracked hmac (⟨s, a, s'⟩ :: h) :=
    ht.cons (e := ⟨s, a, s'⟩)
  cases a
  case deliver now actor p =>
    obtain ⟨-, rfl, hstatus, hintake, htag, proofs, deadline, hdeadline, rfl⟩ := deliver_eq hs
    have hfirst : .logisticsDelivered ∉ s.events := fun hk => by
      simpa [hstatus] using ht.once hk
    have hnone := fun hk => hfirst (ht.answered hk)
    refine ⟨ht.mode, fun hk => .inr (ht.shipped (by simpa using hk)), by simp,
      fun hk => .inr (ht.accepted (by simpa using hk)), by simp, fun _ htagged => ?_, by simp,
      by grind, by grind, by simp, by simp⟩
    rcases htagged with ⟨_, _, _, hact, htype⟩ | htagged
    · cases hact
      obtain ⟨t, ht', hverify⟩ : ∃ t, p.tag = some t ∧ s.verifyTag hmac now "logistics" t := by
        have hany := htag (htype ▸ by decide +kernel)
        cases hp : p.tag <;> simp_all
      exact ⟨now, .inl ⟨⟨p, t, rfl, htype, ht', hverify⟩, ht.accepted hintake⟩, hdeadline⟩
    · exact absurd (ht.tagged htagged) hfirst
  all_goals replace hcons := hcons (by simp)
  all_goals simp only [Session.step] at hs
  case challenge now role nonce =>
    split_ifs at hs
    cases hs
    exact hcons.frame ⟨rfl, rfl, rfl, rfl⟩ (by simp)
  case submit now p =>
    obtain rfl := submit_eq hs
    exact hcons.frame ⟨rfl, rfl, rfl, rfl⟩ (by simp)
  case receipt ok =>
    cases hs
    exact hcons.frame ⟨rfl, rfl, rfl, rfl⟩ (by cases ok <;> simp)
  case coverFields covered =>
    cases hs
    exact hcons.frame ⟨rfl, rfl, rfl, rfl⟩ (by simp [Session.coverFields]; grind)
  case ship now actor ref =>
    simp only [Session.ship, ht.mode] at hs
    split at hs <;> [split at hs; skip] <;> cases hs
    case isTrue.isTrue hactor hstatus =>
      refine (hcons.early ?_ (.inl ⟨rfl, rfl, .inl ⟨now, ref, by rw [hactor]⟩⟩)).frame
        ⟨rfl, rfl, rfl, rfl⟩ (by simp)
      rcases hstatus with h | h <;> simp [h]
  case intake actor itemMatches =>
    split_ifs at hs with hguard hok <;> cases hs <;> refine hcons.early (by simp [hguard]) ?_
    · have hshipped := ht.shipped (ht.awaiting hguard.2.2)
      exact .inr (.inl ⟨rfl, rfl, .inl ⟨by simp [hguard, hok], hshipped⟩⟩)
    · exact .inr (.inr ⟨rfl, rfl⟩)
  case confirm actor answer covered =>
    split_ifs at hs with hactor hfinal hchain hanswer <;> cases hs
    · exact hcons
    all_goals
      have hdelivered : .logisticsDelivered ∈ s.events := by
        simp only [ht.mode, Session.chainOk] at hchain
        grind
    · refine (hcons.answer hdelivered (.inl ⟨.inl ⟨rfl, rfl⟩, fun htagged => ?_⟩)).tryVerify
      obtain ⟨now, hdel, -⟩ := ht.delivered hdelivered (tagged_of_cons (by simp) htagged)
      exact ⟨now, hdel, .inl ⟨covered, by simp_all⟩⟩
    · exact hcons.answer hdelivered (.inr ⟨rfl, rfl⟩)
  case tryVerify covered =>
    cases hs
    exact hcons.tryVerify
  case sweep now covered =>
    cases hs
    exact ht.sweep (e := ⟨s, _, _⟩) (.inl rfl)
  case gate now swept covered =>
    cases hs
    cases swept
    · exact hcons.tryVerify
    · exact (ht.sweep (e := ⟨s, _, _⟩) (.inr rfl)).tryVerify

namespace Sample

def opened : Session :=
  ⟨"v", "t", .physicalTriple, 0, 1, 2, [.event .sellerShipped, .event .logisticsIntakeOk,
    .event .logisticsDelivered, .proof "delivery_photo_tagged"], some 1800, false,
    .awaitingSellerShip, [], [], [], none, false, false⟩

def sessionAfter (as : List Act) : Session := stateAfter (Session.step fun _ => "mac") as opened

def delivered (type : String) : List Act :=
  [.ship 0 0 false, .intake 2 true, .challenge 5 "logistics" "n",
    .deliver 9 2 ⟨type, "0123456789abcdef", "", some ⟨"n", "", "", "mac"⟩⟩]

end Sample

open Sample

end Karma.Delivery
