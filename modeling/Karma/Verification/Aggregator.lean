import Karma.AttestationGateway.Effect
import Karma.Verification.Challenge

/-! # The quorum off the chain

`AttestationAggregator.collect` of `decentralized_verifier/attestation/aggregator.py` keeps the
first attestation of every registered verifier, takes the evidence hash of the first for that of the
quorum, and counts those with this hash whose signature verifies. -/

namespace Karma.Verification

open AttestationGateway

structure VerifierAttestation where
  taskId : String
  evidenceHash : String
  cid : String
  verifierId : String
  verifierWallet : String
  decision : String
  chainId : ℕ
  contractAddress : String
  signature : String
  deriving DecidableEq

structure Payload where
  chainId : ℕ
  verifyingContract : String
  evidenceHash : List UInt8
  cid : String
  decision : String
  verifierId : String

/-- The functions behind `verify_attestation`. -/
structure Primitives where
  toBytes32 : String → Option (List UInt8)
  recover : Payload → String → Option String

def Primitives.payload (P : Primitives) (a : VerifierAttestation) : Option Payload :=
  (P.toBytes32 a.evidenceHash).map fun hash =>
    ⟨a.chainId, if a.contractAddress = "" then "0x0000000000000000000000000000000000000000"
      else a.contractAddress, hash, a.cid, a.decision, a.verifierId⟩

def Primitives.verify (P : Primitives) (a : VerifierAttestation) : Option Bool :=
  if a.signature.startsWith "0x" then
    (P.payload a).map fun p =>
      (P.recover p a.signature).any (·.toLower = a.verifierWallet.toLower)
  else some false

structure VerifierNodeInfo where
  walletAddress : String
  active : Bool

structure Aggregator where
  threshold : ℕ
  threshold_pos : 1 ≤ threshold
  registry : Option (String → Option VerifierNodeInfo)

inductive QuorumStatus
  | attestedOk
  | insufficientSignatures
  deriving DecidableEq

structure AttestationQuorum where
  taskId : String
  evidenceHash : String
  validSignatures : ℕ
  decision : String
  verifierIds : List String
  status : QuorumStatus

def firstSeen : List String → List VerifierAttestation → List VerifierAttestation
  | _, [] => []
  | seen, a :: as =>
    if a.verifierId ∈ seen then firstSeen seen as
    else a :: firstSeen (a.verifierId :: seen) as

namespace Aggregator

variable (P : Primitives) (A : Aggregator) (as : List VerifierAttestation)

def accepts (a : VerifierAttestation) : Bool :=
  A.registry.all fun R => (R a.verifierId).any (·.active)

def deduped : List VerifierAttestation := (firstSeen [] as).filter A.accepts

def canonicalHash : Option String := (A.deduped as).head?.map (·.evidenceHash)

def consistent : List VerifierAttestation :=
  (A.deduped as).filter fun a => some a.evidenceHash = A.canonicalHash as

def validAttestations : List VerifierAttestation :=
  (A.consistent as).filter fun a => P.verify a = some true

end Aggregator

def votes (d : String) (as : List VerifierAttestation) : ℕ := as.countP (·.decision = d)

def computeVerdict (as : List VerifierAttestation) : String :=
  if as = [] then "ATTESTED_FAIL"
  else if as.length - votes "STRUCT_OK" as ≤ votes "STRUCT_OK" as then "ATTESTED_OK"
  else "ATTESTED_FAIL"

variable (P : Primitives) (A : Aggregator) (as : List VerifierAttestation)

def Aggregator.collect : Option AttestationQuorum :=
  if (A.consistent as).all fun a => (P.verify a).isSome then
    let valid := A.validAttestations P as
    some
      { taskId := (valid.head?.map (·.taskId)).getD ""
        evidenceHash := (A.canonicalHash as).getD ""
        validSignatures := valid.length
        decision := computeVerdict valid
        verifierIds := valid.map (·.verifierId)
        status := if A.threshold ≤ valid.length then .attestedOk else .insufficientSignatures }
  else none

def AttestationQuorum.verdict (q : AttestationQuorum) : String :=
  if q.status = .attestedOk then q.decision else "insufficient"

variable {P A as} {a : VerifierAttestation}

theorem mem_firstSeen {seen : List String} : a ∈ firstSeen seen as ↔
      a.verifierId ∉ seen ∧ as.find? (·.verifierId = a.verifierId) = some a := by
  induction as generalizing seen with
  | nil => simp [firstSeen]
  | cons b as ih =>
    unfold firstSeen
    by_cases hid : b.verifierId = a.verifierId <;> by_cases hb : b.verifierId ∈ seen <;>
      simp_all [eq_comm]
    rintro rfl
    exact absurd rfl hid

theorem nodup_firstSeen (seen : List String) (as : List VerifierAttestation) :
    ((firstSeen seen as).map (·.verifierId)).Nodup := by
  induction as generalizing seen with
  | nil => simp [firstSeen]
  | cons b as ih =>
    unfold firstSeen
    split_ifs
    · exact ih seen
    · refine List.nodup_cons.mpr ⟨fun h => ?_, ih _⟩
      obtain ⟨c, hc, hid⟩ := List.mem_map.mp h
      exact (mem_firstSeen.mp hc).1 (hid ▸ List.mem_cons_self)

def Genuine (P : Primitives) (A : Aggregator) (a : VerifierAttestation) : Prop :=
  A.accepts a ∧ P.verify a = some true

theorem mem_validAttestations : a ∈ A.validAttestations P as ↔ Genuine P A a ∧
      as.find? (·.verifierId = a.verifierId) = some a ∧
      some a.evidenceHash = A.canonicalHash as := by
  simp only [Aggregator.validAttestations, Aggregator.consistent, Aggregator.deduped,
    List.mem_filter, mem_firstSeen, decide_eq_true_eq, List.not_mem_nil, not_false_eq_true,
    true_and, Genuine]
  tauto

theorem nodup_validAttestations : ((A.validAttestations P as).map (·.verifierId)).Nodup := by
  refine (nodup_firstSeen [] as).sublist (List.Sublist.map _ ?_)
  exact (List.filter_sublist.trans List.filter_sublist).trans List.filter_sublist

structure QuorumOf (P : Primitives) (A : Aggregator) (as : List VerifierAttestation)
    (q : AttestationQuorum) : Prop where
  taskId : q.taskId = ((A.validAttestations P as).head?.map (·.taskId)).getD ""
  evidenceHash : q.evidenceHash = (A.canonicalHash as).getD ""
  decision : q.decision = computeVerdict (A.validAttestations P as)
  verifierIds : q.verifierIds = (A.validAttestations P as).map (·.verifierId)
  status : q.status = .attestedOk ↔ A.threshold ≤ (A.validAttestations P as).length

theorem collect_eq {q : AttestationQuorum} (h : A.collect P as = some q) : QuorumOf P A as q := by
  unfold Aggregator.collect at h
  split_ifs at h
  cases h
  refine ⟨rfl, rfl, rfl, rfl, ?_⟩
  dsimp only
  split_ifs with hlen <;> simp [hlen]

/-! ## Enough positive attestations -/

namespace Sample

def signedBy (wallet : String) : Primitives := ⟨fun _ => some [], fun _ _ => some wallet⟩

def moreThan (n : ℕ) : Aggregator := ⟨n + 1, by omega, some fun _ => some ⟨"0xAA", true⟩⟩

def attested (task verifierId wallet decision : String) : VerifierAttestation :=
  ⟨task, "h", "cid", verifierId, wallet, decision, 1, "", "0x1"⟩

end Sample

open Sample

def Raises (P : Primitives) (A : Aggregator) (as : List VerifierAttestation) : Prop :=
  ∃ a ∈ A.consistent as, P.verify a = none

def Heard (A : Aggregator) (as : List VerifierAttestation) (a : VerifierAttestation) : Prop :=
  as.find? (·.verifierId = a.verifierId) = some a ∧ some a.evidenceHash = A.canonicalHash as

structure AttestationQuorum.Same (q q' : AttestationQuorum) : Prop where
  status : q.status = q'.status
  verdict : q.verdict = q'.verdict
  verifierIds : ∀ id, id ∈ q.verifierIds ↔ id ∈ q'.verifierIds

theorem collect_eq_none : A.collect P as = none ↔ Raises P A as := by
  simp [Aggregator.collect, Raises]

theorem computeVerdict_perm {as as' : List VerifierAttestation} (h : as.Perm as') :
    computeVerdict as = computeVerdict as' := by
  have hnil : as = [] ↔ as' = [] := by simp only [← List.length_eq_zero_iff, h.length_eq]
  simp only [computeVerdict, votes, hnil, h.length_eq, h.countP_eq]
  congr

theorem same_of_perm {as' : List VerifierAttestation} {q q' : AttestationQuorum}
    (h : A.collect P as = some q) (h' : A.collect P as' = some q')
    (hperm : (A.validAttestations P as).Perm (A.validAttestations P as')) : q.Same q' := by
  have hq := collect_eq h
  have hq' := collect_eq h'
  have hstatus : q.status = .attestedOk ↔ q'.status = .attestedOk := by
    rw [hq.status, hq'.status, hperm.length_eq]
  have hdecision : q.decision = q'.decision := by
    rw [hq.decision, hq'.decision, computeVerdict_perm hperm]
  refine ⟨?_, ?_, fun id => ?_⟩
  · cases hs : q.status <;> cases hs' : q'.status <;> simp_all
  · simp only [AttestationQuorum.verdict, hstatus, hdecision]
  · rw [hq.verifierIds, hq'.verifierIds]
    exact (hperm.map _).mem_iff

theorem heard_of_all_valid (hvalid : ∀ a ∈ as, P.verify a = some true)
    (hhash : ∀ a ∈ as, ∀ b ∈ as, a.evidenceHash = b.evidenceHash)
    (hunique : ∀ a ∈ as, ∀ b ∈ as, a.verifierId = b.verifierId → a = b) :
    ¬ Raises P A as ∧ ∀ a ∈ as, A.accepts a → Heard A as a := by
  have hmem : ∀ {a}, a ∈ A.deduped as → a ∈ as := fun ha =>
    List.mem_of_find?_eq_some (mem_firstSeen.mp (List.mem_filter.mp ha).1).2
  refine ⟨fun ⟨a, ha, hraises⟩ => ?_, fun a ha haccepts => ?_⟩
  · simp [hvalid a (hmem (List.mem_filter.mp ha).1)] at hraises
  obtain ⟨b, hb⟩ : ∃ b, as.find? (·.verifierId = a.verifierId) = some b :=
    Option.isSome_iff_exists.mp (List.find?_isSome.mpr ⟨a, ha, by simp⟩)
  obtain rfl : b = a :=
    hunique _ (List.mem_of_find?_eq_some hb) _ ha (by simpa using List.find?_some hb)
  refine ⟨hb, ?_⟩
  have hded : b ∈ A.deduped as :=
    List.mem_filter.mpr ⟨mem_firstSeen.mpr ⟨List.not_mem_nil, hb⟩, haccepts⟩
  obtain ⟨c, hc⟩ : ∃ c, (A.deduped as).head? = some c :=
    ⟨_, List.head?_eq_some_head (List.ne_nil_of_mem hded)⟩
  simp [Aggregator.canonicalHash, hc, hhash b ha c (hmem (List.mem_of_head? hc))]

/-- **Junk and order.** Attestations that do not verify are inserted and the list is permuted. -/
theorem junk_attestations_iff {as' : List VerifierAttestation} (junk : List VerifierAttestation)
    (hjunk : ∀ a ∈ junk, P.verify a ≠ some true) (hperm : as'.Perm (as ++ junk))
    (hhash : ∀ a ∈ as, ∀ b ∈ as, P.verify a = some true → P.verify b = some true →
      a.evidenceHash = b.evidenceHash)
    (hunique : ∀ a ∈ as, ∀ b ∈ as, P.verify a = some true → P.verify b = some true →
      a.verifierId = b.verifierId → a = b) :
    (Option.Rel AttestationQuorum.Same (A.collect P as) (A.collect P as') ↔
      (Raises P A as ↔ Raises P A as') ∧
      (¬ Raises P A as → ∀ a ∈ as, Genuine P A a → (Heard A as a ↔ Heard A as' a))) ∧
    ((∀ a ∈ as', P.verify a = some true) →
      Option.Rel AttestationQuorum.Same (A.collect P as) (A.collect P as')) := by
  -- The lists have the same valid attestations.
  have hmem : ∀ {a}, P.verify a = some true → (a ∈ as' ↔ a ∈ as) := fun {a} ha => by
    rw [hperm.mem_iff, List.mem_append]
    exact or_iff_left fun h => hjunk a h ha
  have hcounted : ∀ {as a}, a ∈ A.validAttestations P as ↔ Genuine P A a ∧ Heard A as a :=
    mem_validAttestations
  have hin : ∀ {as a}, Heard A as a → a ∈ as := fun h => List.mem_of_find?_eq_some h.1
  have main : Option.Rel AttestationQuorum.Same (A.collect P as) (A.collect P as') ↔
      (Raises P A as ↔ Raises P A as') ∧
      (¬ Raises P A as → ∀ a ∈ as, Genuine P A a → (Heard A as a ↔ Heard A as' a)) := by
    rw [← collect_eq_none, ← collect_eq_none]
    cases hq : A.collect P as with
    | none => cases hq' : A.collect P as' <;> simp
    | some q =>
      cases hq' : A.collect P as' with
      | none => simp
      | some q' =>
        simp only [Option.rel_some_some, reduceCtorEq, not_false_eq_true, true_and, forall_const]
        refine ⟨fun hsame a ha hg => ?_, fun hheard => same_of_perm hq hq' ?_⟩
        · have hid := hsame.verifierIds a.verifierId
          rw [(collect_eq hq).verifierIds, (collect_eq hq').verifierIds, List.mem_map,
            List.mem_map] at hid
          constructor
          · intro h
            obtain ⟨b, hb, heq⟩ := hid.mp ⟨a, hcounted.mpr ⟨hg, h⟩, rfl⟩
            obtain ⟨hgb, hhb⟩ := hcounted.mp hb
            exact hunique b ((hmem hgb.2).mp (hin hhb)) a ha hgb.2 hg.2 heq ▸ hhb
          · intro h
            obtain ⟨b, hb, heq⟩ := hid.mpr ⟨a, hcounted.mpr ⟨hg, h⟩, rfl⟩
            obtain ⟨hgb, hhb⟩ := hcounted.mp hb
            exact hunique b (hin hhb) a ha hgb.2 hg.2 heq ▸ hhb
        · refine (List.perm_ext_iff_of_nodup (nodup_validAttestations.of_map _)
            (nodup_validAttestations.of_map _)).mpr fun a => ?_
          rw [hcounted, hcounted]
          refine and_congr_right fun hg => ⟨fun h => ?_, fun h => ?_⟩
          · exact (hheard a (hin h) hg).mp h
          · exact (hheard a ((hmem hg.2).mp (hin h)) hg).mpr h
  refine ⟨main, fun hvalid => main.mpr ?_⟩
  have hall : ∀ a ∈ as, P.verify a = some true := fun a ha =>
    hvalid a (hperm.mem_iff.mpr (List.mem_append_left _ ha))
  have hsub : ∀ a ∈ as', a ∈ as := fun a ha => (hmem (hvalid a ha)).mp ha
  obtain ⟨hr, hh⟩ := heard_of_all_valid (A := A) hall
    (fun a ha b hb => hhash a ha b hb (hall a ha) (hall b hb))
    (fun a ha b hb => hunique a ha b hb (hall a ha) (hall b hb))
  obtain ⟨hr', hh'⟩ := heard_of_all_valid (A := A) hvalid
    (fun a ha b hb => hhash a (hsub a ha) b (hsub b hb) (hvalid a ha) (hvalid b hb))
    (fun a ha b hb => hunique a (hsub a ha) b (hsub b hb) (hvalid a ha) (hvalid b hb))
  exact ⟨iff_of_false hr hr', fun _ a ha hg =>
    iff_of_true (hh a ha hg.1) (hh' a ((hmem hg.2).mpr ha) hg.1)⟩

/-- Two valid attestations in the other order. -/
theorem junk_attestations_swapped : Option.Rel AttestationQuorum.Same
      ((moreThan 1).collect (signedBy "0xaa")
        [attested "t" "a" "0xaa" "STRUCT_OK", attested "t" "b" "0xaa" "STRUCT_OK"])
      ((moreThan 1).collect (signedBy "0xaa")
        [attested "t" "b" "0xaa" "STRUCT_OK", attested "t" "a" "0xaa" "STRUCT_OK"]) :=
  (junk_attestations_iff [] (by simp) (List.Perm.swap _ _ _) (by decide +kernel)
    (by decide +kernel)).2 (by decide +kernel)

/-- One attestation without a signature in the name of a verifier silences this verifier. -/
theorem junk_silences_verifier : ((moreThan 0).collect (signedBy "0xaa")
      [attested "t" "a" "0xaa" "STRUCT_OK"]).map (·.verdict) = some "ATTESTED_OK" ∧
    (signedBy "0xaa").verify { attested "t" "a" "0xbb" "STRUCT_OK" with signature := "" } =
      some false ∧
    ((moreThan 0).collect (signedBy "0xaa")
      [{ attested "t" "a" "0xbb" "STRUCT_OK" with signature := "" },
        attested "t" "a" "0xaa" "STRUCT_OK"]).map (·.verdict) = some "insufficient" := by
  decide +kernel

/-! ## Who signed, and for which task -/

def Primitives.signer (P : Primitives) (a : VerifierAttestation) : Option String :=
  ((P.payload a).bind (P.recover · a.signature)).map String.toLower

def Aggregator.wallet (A : Aggregator) (verifierId : String) : Option String :=
  (A.registry.bind (· verifierId)).map (·.walletAddress.toLower)

section Signed

-- The wallet, in lower case, and the attestation that its owner signed with it.
variable (signed : String → VerifierAttestation → Prop)

variable {signed}

end Signed

namespace Sample

end Sample

end Karma.Verification
