import Mae.Sync.Membership.SignedBytes

/-! Signed content ops: a node edit under an authorship header, and the bytes that its signature covers. -/

namespace Mae.Sync

open Std (ExtTreeMap)
open Library.Framing Sync.Membership List Option

structure ContentOp where
  kbId : String
  nodeId : String
  baseSv : Bytes
  author : String
  epoch : UInt64
  issuedAt : UInt64
  deriving DecidableEq, Inhabited

namespace ContentOp

def headerFields (op : ContentOp) : List String :=
  ["maecontent/v1", op.kbId, op.nodeId, hexEncode op.baseSv, op.author, toString op.epoch.toNat,
    toString op.issuedAt.toNat]

def canonicalBytes (op : ContentOp) (payload : Bytes) : Bytes := op.headerFields.flatMap field ++ payload

def verify (C : Crypto) (op : ContentOp) (sig : Bytes) (authorPubkey : Key32) (payload : Bytes) : Bool :=
  C.decodesKey authorPubkey && sig.length == 64 && C.verifies authorPubkey (op.canonicalBytes payload) sig

def fingerprintMatches (C : Crypto) (op : ContentOp) (pubkey : Key32) : Bool := fingerprintOf C pubkey == op.author

end ContentOp

structure SignedContentOp where
  op : ContentOp
  payload : Bytes
  sig : Bytes
  authorPubkey : Key32
  deriving DecidableEq, Inhabited

inductive AdmissionError where
  | badSignature
  | notAMember
  | insufficientRole
  | staleEpoch (opEpoch currentEpoch : UInt64)
  deriving DecidableEq, Repr

/-- The params of a `kb/node_update` request that concern its authorship. A field is `none` when it is absent or not of
its JSON type; the binary fields stand here as their base64 text decodes. -/
structure ContentParams where
  kbId : Option String := none
  nodeId : Option String := none
  author : Option String := none
  epoch : Option UInt64 := none
  issuedAt : Option UInt64 := none
  baseSv : Option Bytes := none
  sig : Option Bytes := none
  authorPubkey : Option Bytes := none
  deriving DecidableEq

/-- What `verify_relayed_content_op` does to a header: the address comes from the receiver, whatever the header says. -/
def ContentParams.addressed (params : ContentParams) (kbId nodeId : String) : ContentParams :=
  { params with kbId := some kbId, nodeId := some nodeId }

def key32 (b : Bytes) : Option Key32 := if h : b.length = 32 then some ⟨b.toArray, by simpa using h⟩ else none

namespace SignedContentOp

def verifySigned (C : Crypto) (s : SignedContentOp) : Bool :=
  s.op.fingerprintMatches C s.authorPubkey && s.op.verify C s.sig s.authorPubkey s.payload

def admitOp (C : Crypto) (s : SignedContentOp) (members : Members) : Except AdmissionError Unit :=
  if !s.verifySigned C then .error .badSignature
  else match members[s.op.author]? with
    | none => .error .notAMember
    | some member =>
      if !member.role.includes .editor then .error .insufficientRole
      else if member.epoch != s.op.epoch then .error (.staleEpoch s.op.epoch member.epoch)
      else .ok ()

def headerParams (s : SignedContentOp) : ContentParams where
  author := some s.op.author
  epoch := some s.op.epoch
  issuedAt := some s.op.issuedAt
  baseSv := some s.op.baseSv
  sig := some s.sig
  authorPubkey := some s.authorPubkey.toList

def fromParams (params : ContentParams) (payload : Bytes) : Option SignedContentOp := do
  let sig ← params.sig
  let kbId ← params.kbId
  let nodeId ← params.nodeId
  let author ← params.author
  let epoch ← params.epoch
  let issuedAt ← params.issuedAt
  let baseSv ← params.baseSv
  let authorPubkey ← params.authorPubkey.bind key32
  return { op := ⟨kbId, nodeId, baseSv, author, epoch, issuedAt⟩, payload, sig, authorPubkey }

end SignedContentOp

def kbIdIsAddressable (kbId : String) : Bool := kbId != "" && !kbId.toList.contains ':'

lemma key32_toList (k : Key32) : key32 k.toList = some k := by
  rw [key32, dif_pos (by simp)]
  exact congrArg some (Vector.toList_inj.mp rfl)

lemma SignedContentOp.fromParams_headerParams (s : SignedContentOp) :
    fromParams (s.headerParams.addressed s.op.kbId s.op.nodeId) s.payload = some s := by
  simp [fromParams, headerParams, ContentParams.addressed, key32_toList]

lemma SignedContentOp.of_fromParams {params : ContentParams} {kbId nodeId : String} {payload : Bytes}
    {s : SignedContentOp} (h : fromParams (params.addressed kbId nodeId) payload = some s) :
    s.op.kbId = kbId ∧ s.op.nodeId = nodeId ∧ s.payload = payload ∧ params.author = some s.op.author ∧
      params.epoch = some s.op.epoch ∧ params.issuedAt = some s.op.issuedAt ∧ params.baseSv = some s.op.baseSv ∧
      params.sig = some s.sig ∧ params.authorPubkey.bind key32 = some s.authorPubkey := by
  simp only [fromParams, ContentParams.addressed, bind_eq_bind, bind_some, bind_eq_some_iff,
    Option.pure_def, Option.some.injEq] at h
  obtain ⟨sig, hsig, author, hauthor, epoch, hepoch, issuedAt, hissued, baseSv, hsv, key, hkey, rfl⟩ := h
  refine ⟨rfl, rfl, rfl, hauthor, hepoch, hissued, hsv, hsig, ?_⟩
  rw [bind_eq_some_iff]
  exact hkey

lemma SignedContentOp.verifies_of_admitOp {C : Crypto} {s : SignedContentOp} {members : Members}
    (h : s.admitOp C members = .ok ()) : C.verifies s.authorPubkey (s.op.canonicalBytes s.payload) s.sig = true := by
  have hsigned : s.verifySigned C = true := by
    rw [admitOp] at h
    by_contra hnot
    simp [Bool.eq_false_of_not_eq_true hnot] at h
  simp only [verifySigned, ContentOp.verify, Bool.and_eq_true] at hsigned
  exact hsigned.2.2

namespace ContentOp

lemma zero_notMem_headerFields {op : ContentOp} (hkb : NulFree op.kbId) (hnode : NulFree op.nodeId)
    (hauthor : NulFree op.author) : ∀ b ∈ op.headerFields.map asBytes, 0 ∉ b := by
  rw [List.forall_mem_map]
  intro s hs
  apply NulFree.zero_notMem
  simp only [headerFields, mem_cons, not_mem_nil, or_false] at hs
  rcases hs with rfl | rfl | rfl | rfl | rfl | rfl | rfl
  · decide
  · exact hkb
  · exact hnode
  · exact nulFree_hexEncode _
  · exact hauthor
  · exact nulFree_toString _
  · exact nulFree_toString _

lemma headerFields_injective : Function.Injective headerFields := by
  intro o o' h
  simp only [headerFields, List.cons.injEq, and_true, true_and] at h
  obtain ⟨hkb, hnode, hsv, hauthor, hepoch, hissued⟩ := h
  cases o
  cases o'
  simp only at hkb hnode hsv hauthor hepoch hissued
  rw [hkb, hnode, hexEncode_injective hsv, hauthor, UInt64.toNat_inj.mp (toString_injective hepoch),
    UInt64.toNat_inj.mp (toString_injective hissued)]

lemma eq_of_canonicalBytes {o o' : ContentOp} {p p' : Bytes}
    (hfree : ∀ s ∈ [o.kbId, o.nodeId, o.author, o'.kbId, o'.nodeId, o'.author], NulFree s)
    (h : o.canonicalBytes p = o'.canonicalBytes p') : o = o' ∧ p = p' := by
  simp only [forall_mem_cons, not_mem_nil, false_imp_iff, implies_true, and_true] at hfree
  obtain ⟨hkb, hnode, hauthor, hkb', hnode', hauthor'⟩ := hfree
  obtain ⟨hfields, hp⟩ := flatMap_terminated_append_inj (by simp [headerFields])
    (zero_notMem_headerFields hkb hnode hauthor) (zero_notMem_headerFields hkb' hnode' hauthor') h
  exact ⟨headerFields_injective (map_injective_iff.mpr asBytes_injective hfields), hp⟩

lemma address_of_canonicalBytes {o o' : ContentOp} {p p' : Bytes} (hsv : o.baseSv = o'.baseSv)
    (hauthor : o.author = o'.author) (hepoch : o.epoch = o'.epoch) (hissued : o.issuedAt = o'.issuedAt)
    (hfree : ∀ s ∈ [o.kbId, o.nodeId, o'.kbId, o'.nodeId], NulFree s)
    (h : o.canonicalBytes p = o'.canonicalBytes p') : o.kbId = o'.kbId ∧ o.nodeId = o'.nodeId ∧ p = p' := by
  simp only [forall_mem_cons, not_mem_nil, false_imp_iff, implies_true, and_true] at hfree
  obtain ⟨hkb, hnode, hkb', hnode'⟩ := hfree
  simp only [canonicalBytes, headerFields, field, flatMap_cons, append_assoc, cons_append, nil_append] at h
  obtain ⟨-, h⟩ := append_terminator_inj (by decide) (by decide) h
  obtain ⟨hkbs, h⟩ := append_terminator_inj hkb.zero_notMem hkb'.zero_notMem h
  obtain ⟨hnodes, h⟩ := append_terminator_inj hnode.zero_notMem hnode'.zero_notMem h
  rw [hsv, hauthor, hepoch, hissued] at h
  refine ⟨asBytes_injective hkbs, asBytes_injective hnodes, ?_⟩
  simpa using h

lemma canonicalBytes_shift (op : ContentOp) (kb inner node : String) (payload : Bytes) :
    { op with kbId := kb ++ "\x00" ++ inner, nodeId := node }.canonicalBytes payload =
      { op with kbId := kb, nodeId := inner ++ "\x00" ++ node }.canonicalBytes payload := by
  have hjoin : ∀ s t : String, asBytes (s ++ "\x00" ++ t) = asBytes s ++ 0 :: asBytes t := by
    intro s t
    simp only [asBytes_eq_flatMap, String.toList_append, flatMap_append, append_assoc]
    rfl
  simp [canonicalBytes, headerFields, field, hjoin]

end ContentOp

def Membership.Crypto.SignatureBinds (C : Crypto) : Prop :=
  ∀ pk msg msg' sig, C.verifies pk msg sig = true → C.verifies pk msg' sig = true → msg = msg'

lemma SignedContentOp.address_of_admitOp {C : Crypto} (hbind : C.SignatureBinds) {params : ContentParams}
    {kb node kb' node' : String} {p p' : Bytes} {s s' : SignedContentOp} {members members' : Members}
    (hfree : ∀ t ∈ [kb, node, kb', node'], NulFree t)
    (hs : fromParams (params.addressed kb node) p = some s) (hs' : fromParams (params.addressed kb' node') p' = some s')
    (hadmitted : s.admitOp C members = .ok ()) (hadmitted' : s'.admitOp C members' = .ok ()) :
    kb = kb' ∧ node = node' ∧ p = p' := by
  obtain ⟨rfl, rfl, rfl, hauthor, hepoch, hissued, hsv, hsig, hkey⟩ := of_fromParams hs
  obtain ⟨rfl, rfl, rfl, hauthor', hepoch', hissued', hsv', hsig', hkey'⟩ := of_fromParams hs'
  have hverified' := verifies_of_admitOp hadmitted'
  rw [← mem_unique hkey hkey', ← mem_unique hsig hsig'] at hverified'
  apply ContentOp.address_of_canonicalBytes _ _ _ _ hfree
  · exact hbind _ _ _ _ (verifies_of_admitOp hadmitted) hverified'
  · exact mem_unique hsv hsv'
  · exact mem_unique hauthor hauthor'
  · exact mem_unique hepoch hepoch'
  · exact mem_unique hissued hissued'

open SignedContentOp

theorem content_signature_fixes_op (C : Crypto) (hbind : C.SignatureBinds) : (∀ (o o' : ContentOp) (p p' : Bytes),
      (∀ t ∈ [o.kbId, o.nodeId, o.author, o'.kbId, o'.nodeId, o'.author], NulFree t) →
      o.canonicalBytes p = o'.canonicalBytes p' → o = o' ∧ p = p') ∧
    ∀ (params : ContentParams) (kb node kb' node' : String) (p p' : Bytes) (s s' : SignedContentOp)
      (members members' : Members), (∀ t ∈ [kb, node, kb', node'], NulFree t) →
      fromParams (params.addressed kb node) p = some s → s.admitOp C members = .ok () →
      fromParams (params.addressed kb' node') p' = some s' → s'.admitOp C members' = .ok () →
      kb = kb' ∧ node = node' ∧ p = p' := by
  refine ⟨fun o o' p p' => ContentOp.eq_of_canonicalBytes, ?_⟩
  intro params kb node kb' node' p p' s s' members members' hfree hs hadmitted hs' hadmitted'
  exact address_of_admitOp hbind hfree hs hs' hadmitted hadmitted'

def Membership.Crypto.signedOnce (signed : Bytes) : Crypto :=
  { Crypto.sample with verifies := fun pk msg sig => sig.head? == pk.toList.head? && msg == signed }

lemma Membership.Crypto.signatureBinds_signedOnce (signed : Bytes) : (Crypto.signedOnce signed).SignatureBinds := by
  intro pk msg msg' sig h h'
  simp only [Crypto.signedOnce, Bool.and_eq_true, beq_iff_eq] at h h'
  rw [h.2, h'.2]

/-- The header of an edit by `e` at epoch 3. -/
def sampleHeader : ContentParams where
  author := some (sampleFp 'e')
  epoch := some 3
  issuedAt := some 7
  baseSv := some [1, 0]
  sig := some (List.replicate 64 (UInt8.ofNat 'e'.toNat))
  authorPubkey := some (sampleKey 'e').toList

def sampleEdit (kbId nodeId : String) : SignedContentOp where
  op := ⟨kbId, nodeId, [1, 0], sampleFp 'e', 3, 7⟩
  payload := [5, 0, 5]
  sig := List.replicate 64 (UInt8.ofNat 'e'.toNat)
  authorPubkey := sampleKey 'e'

def sampleEditors : Members :=
  (∅ : Members).insert (sampleFp 'e') { (default : ValidMember) with role := .editor, epoch := 3 }

def sampleEditCrypto (kbId nodeId : String) : Crypto :=
  .signedOnce ((sampleEdit kbId nodeId).op.canonicalBytes [5, 0, 5])

theorem content_signature_fixes_sample :
    fromParams (sampleHeader.addressed "notes" "idea") [5, 0, 5] = some (sampleEdit "notes" "idea") ∧
      (sampleEdit "notes" "idea").admitOp (sampleEditCrypto "notes" "idea") sampleEditors = .ok () ∧
      ∀ (s : SignedContentOp) (kb node : String), NulFree kb → NulFree node →
        fromParams (sampleHeader.addressed kb node) [5, 0, 5] = some s →
        s.admitOp (sampleEditCrypto "notes" "idea") sampleEditors = .ok () → kb = "notes" ∧ node = "idea" := by
  have hparams : fromParams (sampleHeader.addressed "notes" "idea") [5, 0, 5] =
      some (sampleEdit "notes" "idea") := fromParams_headerParams (sampleEdit "notes" "idea")
  have hadmitted : (sampleEdit "notes" "idea").admitOp (sampleEditCrypto "notes" "idea") sampleEditors = .ok () := by
    decide +kernel
  refine ⟨hparams, hadmitted, ?_⟩
  intro s kb node hkb hnode hs hok
  have hfixed := (content_signature_fixes_op _ (Crypto.signatureBinds_signedOnce _)).2 sampleHeader kb node "notes"
    "idea" _ _ s _ sampleEditors sampleEditors (by simp [hkb, hnode]; decide) hs hok hparams hadmitted
  exact ⟨hfixed.1, hfixed.2.1⟩

theorem content_signature_moves_between_kbs : kbIdIsAddressable "a\x00b" = true ∧ kbIdIsAddressable "a" = true ∧
      (sampleEdit "a\x00b" "c").op.canonicalBytes [5, 0, 5] = (sampleEdit "a" "b\x00c").op.canonicalBytes [5, 0, 5] ∧
      (sampleEdit "a\x00b" "c").op ≠ (sampleEdit "a" "b\x00c").op ∧
      fromParams (sampleHeader.addressed "a\x00b" "c") [5, 0, 5] = some (sampleEdit "a\x00b" "c") ∧
      fromParams (sampleHeader.addressed "a" "b\x00c") [5, 0, 5] = some (sampleEdit "a" "b\x00c") ∧
      (sampleEditCrypto "a\x00b" "c").SignatureBinds ∧
      (sampleEdit "a\x00b" "c").admitOp (sampleEditCrypto "a\x00b" "c") sampleEditors = .ok () ∧
      (sampleEdit "a" "b\x00c").admitOp (sampleEditCrypto "a\x00b" "c") sampleEditors = .ok () := by
  refine ⟨by decide, by decide, ContentOp.canonicalBytes_shift (sampleEdit "" "").op "a" "b" "c" _, by decide,
    fromParams_headerParams (sampleEdit "a\x00b" "c"),
    fromParams_headerParams (sampleEdit "a" "b\x00c"),
    Crypto.signatureBinds_signedOnce _, by decide +kernel, by decide +kernel⟩

end Mae.Sync
