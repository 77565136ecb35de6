import Mae.Daemon.Access
import Mae.Sync.RebirthHash

/-! The gate for members who write to a collection that they do not own, and what it leaves alone. -/

namespace Mae.Daemon

open Std (ExtTreeMap)
open Library.Checks Sync Sync.Membership List Yrs Root

variable {Y : Yrs}

def currentMemberSet (env : Env Y) (kbId : String) (root : Root) : List String :=
  match anchorInForce env kbId root with
  | some anchor => (derivedMembership env kbId root anchor).keys
  | none => root.memberRoles.map (·.fingerprint)

structure Pinned where
  owner : String
  roster : List Member
  joinPolicy : JoinPolicy
  transportPolicyRaw : Option TransportPolicy
  encryption : Encryption
  creator : String
  deriving DecidableEq

def pinned (root : Root) : Pinned where
  owner := root.owner
  roster := root.memberRoles
  joinPolicy := root.joinPolicy
  transportPolicyRaw := root.transportPolicyRaw
  encryption := root.encryption
  creator := root.creator

/-- The op-log before the update and the sender, which the new ops are judged by. -/
structure Judge where
  C : Crypto
  registry : RecoveryRegistry
  members : List String
  principal : String

variable (j : Judge) (o : SignedMembershipOp)

def rotationSigner : Except String Unit :=
  if o.verifySigned j.C then requires (o.op.author = j.principal) "a member may only rotate their own identity"
  else if isRecoverySignedRebind j.C o j.registry then
    requires (o.op.subject = j.principal) "a recovery rotation must be submitted by the successor key it rotates into"
  else .error "rotation op is neither self-signed nor signed by a registered recovery key"

def checkRotation (npk : Key32) : Except String Unit := do
  requires o.op.newWrapPubkey.isSome "rotation op is missing the successor wrap key"
  requires (fingerprintOf j.C npk = o.op.subject) "rotation successor is not bound to its public key"
  requires (o.op.subject ≠ o.op.author) "rotation successor equals the author (no-op)"
  requires (o.op.author ∈ j.members) "rotation predecessor is not a current member"
  requires (o.op.subject ∉ j.members) "rotation successor is already a member (must rotate into a fresh key)"
  rotationSigner j o

def checkRegistration : Except String Unit := do
  requires (o.verifySigned j.C) "recovery-key registration signature is invalid"
  requires (o.op.author = j.principal ∧ o.op.subject = j.principal) "a member may only register their OWN recovery key"
  requires o.op.recoveryPubkey.isSome "recovery-key registration is missing the recovery public key"
  requires (o.op.author ∈ j.members) "recovery-key registrant is not a current member"

def checkNewOp : Except String Unit :=
  match o.op.action, o.op.newPubkey with
  | .rebind, none => .error "rotation op is missing the successor public key"
  | .rebind, some npk => checkRotation j o npk
  | .registerRecoveryKey, _ => checkRegistration j o
  | other, _ => .error (s!"a member may only author a Rebind or RegisterRecoveryKey on this path, " ++
      s!"not a {other.asStr} op")

def rebindPair : Option (String × String) :=
  if o.op.action = .rebind then some (o.op.subject, o.op.author) else none

def newOps (C : Crypto) (before after : Root) : List SignedMembershipOp :=
  after.oplogOps.filter fun o => o.chainHash C ∉ before.oplogOps.map fun b => b.chainHash C

def Judge.of (env : Env Y) (kbId : String) (before : Root) (principal : String) : Judge where
  C := env.C
  registry := recoveryRegistry env.C before.oplogOps
  members := currentMemberSet env kbId before
  principal := principal

/-- `coll` and `update` may be the reasons why there is no collection or no update. -/
def verifyMemberSelfServiceUpdate (env : Env Y) (kbId : String) (principal : Option String) (coll : Except String Y.Doc)
    (update : Except String Y.Update) : Except String (List (String × String)) := do
  let principal ← principal.elim (.error "member self-rotation requires an authenticated principal") .ok
  let coll ← coll.mapError fun e => s!"KB '{kbId}' not found: {e}"
  let u ← update.mapError fun e => s!"collection update did not apply: {e}"
  let before := Y.root coll
  let after := Y.root (Y.apply coll u)
  requires (pinned after = pinned before) ("a member self-rotation may not modify the owner, member roster, policy, " ++
    "or encryption state of the collection")
  requires (before.oplogOps.all fun b => b.chainHash env.C ∈ after.oplogOps.map fun a => a.chainHash env.C)
    ("a member self-service update may not remove or rewrite any existing membership op — the op-log is append-only")
  requires (newOps env.C before after ≠ []) "update introduces no new membership op (not a member rotation)"
  let _ ← (newOps env.C before after).mapM (checkNewOp (.of env kbId before principal))
  .ok ((newOps env.C before after).filterMap rebindPair)

inductive SelfService (j : Judge) (o : SignedMembershipOp) : Prop
  | rotation (npk : Key32) (action : o.op.action = .rebind) (key : o.op.newPubkey = some npk)
      (bound : fingerprintOf j.C npk = o.op.subject) (member : o.op.author ∈ j.members)
      (fresh : o.op.subject ∉ j.members) (signed : o.verifySigned j.C = true) (own : o.op.author = j.principal)
  | recovery (npk : Key32) (action : o.op.action = .rebind) (key : o.op.newPubkey = some npk)
      (bound : fingerprintOf j.C npk = o.op.subject) (member : o.op.author ∈ j.members)
      (fresh : o.op.subject ∉ j.members) (signed : isRecoverySignedRebind j.C o j.registry = true)
      (own : o.op.subject = j.principal)
  | registration (action : o.op.action = .registerRecoveryKey) (key : o.op.recoveryPubkey.isSome = true)
      (member : o.op.author ∈ j.members) (signed : o.verifySigned j.C = true)
      (own : o.op.author = j.principal ∧ o.op.subject = j.principal)

/-- What is in a collection besides the op-log. -/
structure Parts where
  name : String
  creator : String
  nodes : ExtTreeMap String Item
  legacyMembers : List String
  schemaVersion : ℕ
  owner : String
  roster : ExtTreeMap String Item
  retired : ExtTreeMap String Item
  pending : ExtTreeMap String Item
  joinPolicy : JoinPolicy
  transportPolicyRaw : Option TransportPolicy
  encryption : Encryption
  leases : ExtTreeMap String Item
  embeddingModel : Option String
  chunkVersion : ℤ
  shareDerivedArtifacts : Bool

def parts (root : Root) : Parts where
  name := root.name
  creator := root.creator
  nodes := root.entries "nodes"
  legacyMembers := root.legacyMembers
  schemaVersion := root.schemaVersion
  owner := root.owner
  roster := root.entries "member_roles"
  retired := root.entries "retired"
  pending := root.entries "pending"
  joinPolicy := root.joinPolicy
  transportPolicyRaw := root.transportPolicyRaw
  encryption := root.encryption
  leases := root.entries "leases"
  embeddingModel := root.embeddingModel
  chunkVersion := ((root.text "chunk_version").bind parseI64).getD 0
  shareDerivedArtifacts := root.shareDerivedArtifacts

/-- Where an update writes: a key of the root, or a key of a map in it. -/
structure Frames (Y : Yrs) where
  touched : Y.Doc → Y.Update → List (String × Option String)
  untouched : ∀ d u key, (∀ p ∈ touched d u, p.1 ≠ key) → (Y.root (Y.apply d u))[key]? = (Y.root d)[key]?
  untouched_sub : ∀ d u key (sub : String), (key, none) ∉ touched d u → (key, some sub) ∉ touched d u →
    ((Y.root (Y.apply d u)).entries key)[sub]? = ((Y.root d).entries key)[sub]?

def pinnedKeys : List String := ["owner", "creator", "join_policy", "transport_policy", "encryption"]

def Frames.OnlyAppends (F : Frames Y) (d : Y.Doc) (u : Y.Update) : Prop :=
  ∀ p ∈ F.touched d u, p.1 ∈ pinnedKeys ∨ p.1 = "membership_oplog" ∧
    match p.2 with
    | none => (Y.root d)["membership_oplog"]? = none
    | some sub => ((Y.root d).entries "membership_oplog")[sub]? = none

def WellKeyed (C : Crypto) (root : Root) : Prop :=
  ∀ (sub : String) (item : Item) (o : SignedMembershipOp), (root.entries "membership_oplog")[sub]? = some item →
    item.fields?.bind decodeOpRecord = some o → o.chainHash C = sub

section Gate

variable {j : Judge} {o : SignedMembershipOp}

lemma selfService_of_checkRotation {npk : Key32} (haction : o.op.action = .rebind) (hkey : o.op.newPubkey = some npk)
    (h : checkRotation j o npk = .ok ()) : SelfService j o := by
  simp only [checkRotation, bind_ok_iff, requires_ok_iff, decide_eq_true_eq] at h
  obtain ⟨-, -, -, hbound, -, -, -, hmember, -, hfresh, hsigner⟩ := h
  rw [rotationSigner] at hsigner
  split_ifs at hsigner with hself hrecovery
  · exact .rotation npk haction hkey hbound hmember hfresh hself (by simpa [requires_ok_iff] using hsigner)
  · exact .recovery npk haction hkey hbound hmember hfresh hrecovery (by simpa [requires_ok_iff] using hsigner)

lemma selfService_of_checkNewOp (h : checkNewOp j o = .ok ()) : SelfService j o := by
  rw [checkNewOp.eq_def] at h
  split at h
  · cases h
  · next npk haction hkey => exact selfService_of_checkRotation haction hkey h
  · next _ haction =>
    simp only [checkRegistration, bind_ok_iff, requires_ok_iff, decide_eq_true_eq] at h
    obtain ⟨-, hsigned, -, hown, -, hkey, hmember⟩ := h
    exact .registration haction hkey hmember hsigned hown
  · cases h

end Gate

section Frame

variable {F : Frames Y} {d : Y.Doc} {u : Y.Update} {env : Env Y} {kbId : String}

lemma mem_oplogOps {root : Root} {o : SignedMembershipOp} :
    o ∈ root.oplogOps ↔ ∃ (sub : String) (item : Item), (root.entries "membership_oplog")[sub]? = some item ∧
      item.fields?.bind decodeOpRecord = some o := by
  rw [oplogOps, mem_filterMap]
  constructor
  · rintro ⟨⟨sub, item⟩, hmem, hdecode⟩
    exact ⟨sub, item, ExtTreeMap.mem_toList_iff_getElem?_eq_some.mp hmem, hdecode⟩
  · rintro ⟨sub, item, hmem, hdecode⟩
    exact ⟨(sub, item), ExtTreeMap.mem_toList_iff_getElem?_eq_some.mpr hmem, hdecode⟩

section

variable (h : F.OnlyAppends d u)
include h

lemma Frames.OnlyAppends.cell {key : String} (hpinned : key ∉ pinnedKeys) (hoplog : key ≠ "membership_oplog") :
    (Y.root (Y.apply d u))[key]? = (Y.root d)[key]? := by
  apply F.untouched
  rintro p hp rfl
  rcases h p hp with hmem | ⟨hkey, -⟩
  · exact hpinned hmem
  · exact hoplog hkey

lemma Frames.OnlyAppends.record {sub : String} {item : Item}
    (hitem : ((Y.root d).entries "membership_oplog")[sub]? = some item) :
    ((Y.root (Y.apply d u)).entries "membership_oplog")[sub]? = some item := by
  rw [F.untouched_sub, hitem]
  · intro hp
    rcases h _ hp with hmem | ⟨-, hnone⟩
    · exact absurd hmem (by decide)
    · dsimp only at hnone
      simp [entries, hnone] at hitem
  · intro hp
    rcases h _ hp with hmem | ⟨-, hnone⟩
    · exact absurd hmem (show "membership_oplog" ∉ pinnedKeys by decide)
    · dsimp only at hnone
      rw [hitem] at hnone
      cases hnone

lemma parts_eq (hpinned : pinned (Y.root (Y.apply d u)) = pinned (Y.root d)) :
    parts (Y.root (Y.apply d u)) = parts (Y.root d) := by
  have hcell : ∀ key ∉ pinnedKeys, key ≠ "membership_oplog" → (Y.root (Y.apply d u))[key]? = (Y.root d)[key]? :=
    fun key => h.cell
  have hname := hcell "name" (by decide) (by decide)
  have hnodes := hcell "nodes" (by decide) (by decide)
  have hmembers := hcell "members" (by decide) (by decide)
  have hschema := hcell "schema" (by decide) (by decide)
  have hroster := hcell "member_roles" (by decide) (by decide)
  have hretired := hcell "retired" (by decide) (by decide)
  have hpending := hcell "pending" (by decide) (by decide)
  have hleases := hcell "leases" (by decide) (by decide)
  have hmodel := hcell "embedding_model" (by decide) (by decide)
  have hchunk := hcell "chunk_version" (by decide) (by decide)
  have hshare := hcell "share_derived_artifacts" (by decide) (by decide)
  simp only [pinned, Pinned.mk.injEq] at hpinned
  simp [parts, hpinned, Root.name, text, entries, Root.legacyMembers, arrayAt, Root.schemaVersion,
    Root.embeddingModel, Root.shareDerivedArtifacts, hname, hnodes, hmembers, hschema, hroster, hretired, hpending,
    hleases, hmodel, hchunk, hshare]

lemma old_or_new (hkeyed : WellKeyed env.C (Y.root (Y.apply d u))) {o : SignedMembershipOp}
    (ho : o ∈ (Y.root (Y.apply d u)).oplogOps) :
    o ∈ (Y.root d).oplogOps ∨ o ∈ newOps env.C (Y.root d) (Y.root (Y.apply d u)) := by
  obtain ⟨sub, item, hitem, hdecode⟩ := mem_oplogOps.mp ho
  cases hold : ((Y.root d).entries "membership_oplog")[sub]? with
  | some item' =>
    obtain rfl : item' = item := Option.some.inj ((h.record hold).symm.trans hitem)
    exact .inl (mem_oplogOps.mpr ⟨sub, item', hold, hdecode⟩)
  | none =>
    right
    refine mem_filter.mpr ⟨ho, decide_eq_true fun hhash => ?_⟩
    -- an old op with the hash would stand under the same key
    obtain ⟨b, hb, hsame⟩ := mem_map.mp hhash
    obtain ⟨sub', item', hitem', hdecode'⟩ := mem_oplogOps.mp hb
    have hsub : sub' = sub := by
      rw [← hkeyed sub' item' b (h.record hitem') hdecode', hsame, hkeyed sub item o hitem hdecode]
    rw [hsub, hold] at hitem'
    cases hitem'

end

lemma verify_ok {principal : Option String} {pairs : List (String × String)}
    (h : verifyMemberSelfServiceUpdate env kbId principal (.ok d) (.ok u) = .ok pairs) :
    ∃ p, principal = some p ∧ pinned (Y.root (Y.apply d u)) = pinned (Y.root d) ∧
      newOps env.C (Y.root d) (Y.root (Y.apply d u)) ≠ [] ∧
      (∀ o ∈ newOps env.C (Y.root d) (Y.root (Y.apply d u)), SelfService (.of env kbId (Y.root d) p) o) ∧
      pairs = (newOps env.C (Y.root d) (Y.root (Y.apply d u))).filterMap rebindPair := by
  obtain ⟨p, hp, h⟩ := bind_ok_iff.mp h
  obtain ⟨coll, hcoll, h⟩ := bind_ok_iff.mp h
  obtain ⟨u', hu', h⟩ := bind_ok_iff.mp h
  rw [← Except.ok.inj (mapError_ok_iff.mp hcoll), ← Except.ok.inj (mapError_ok_iff.mp hu')] at h
  obtain ⟨_, hpinned, h⟩ := bind_ok_iff.mp h
  obtain ⟨_, -, h⟩ := bind_ok_iff.mp h
  obtain ⟨_, hnew, h⟩ := bind_ok_iff.mp h
  obtain ⟨checked, hchecked, h⟩ := bind_ok_iff.mp h
  refine ⟨p, ?_, by simpa using requires_ok_iff.mp hpinned, by simpa using requires_ok_iff.mp hnew, fun o ho => ?_,
    (Except.ok.inj h).symm⟩
  · cases principal with
    | none => cases hp
    | some q => exact congrArg some (Except.ok.inj hp)
  · obtain ⟨_, hcheck⟩ := exists_ok_of_mapM hchecked o ho
    exact selfService_of_checkNewOp hcheck

end Frame

lemma wellKeyed_of_all {C : Crypto} {root : Root} (h : ((root.entries "membership_oplog").toList.all fun e =>
    (e.2.fields?.bind decodeOpRecord).all fun o => o.chainHash C = e.1) = true) : WellKeyed C root := by
  intro sub item o hitem hdecode
  have hentry := all_eq_true.mp h (sub, item) (ExtTreeMap.mem_toList_iff_getElem?_eq_some.mpr hitem)
  simpa [hdecode] using hentry

lemma root_apply_sample (d : SampleDoc) (u : SampleUpdate) : (d.apply u).root = d.root.writes (newWrites d u) := by
  simp [SampleDoc.apply, SampleDoc.root, Root.writes, newWrites]

def Frames.sample : Frames .sample where
  touched d u := (newWrites d u).map Write.path
  untouched d u key h := by
    apply (congrArg (·[key]?) (root_apply_sample d u)).trans
    exact getElem?_writes_of_ne fun w hw => h _ (mem_map_of_mem hw)
  untouched_sub d u key sub hnone hsome := by
    apply (congrArg (fun r => (entries r key)[sub]?) (root_apply_sample d u)).trans
    apply entries_writes_of_ne
    · intro w hw h
      exact hnone (h ▸ mem_map_of_mem hw)
    · intro w hw h
      exact hsome (h ▸ mem_map_of_mem hw)

def sampleCollection : SampleDoc :=
  sample.apply sample.blank [((1, 0),
    [.put "name" "notes", .put "owner" (sampleFp 'o'), .newMap "nodes", .putIn "nodes" "idea" "Idea",
      .newMap "member_roles", .putRecord "member_roles" (sampleFp 'b') (memberFields .editor "bob" 3),
      .putRecord "member_roles" (sampleFp 'c') (memberFields .editor "carol" 4)] ++
      appendSignedOp ∅ .sample sampleGenesis)]

def sampleSelfService : Env .sample where
  C := .sample
  authorizedKeys := none
  anchor _ := none
  view _ := {}
  signer := none
  now := 0
  freshEpochToken := 7
  pickLru _ := none

def sampleSelfUpdate (more : List Write) : SampleUpdate :=
  [((2, 0), appendSignedOp sampleCollection.root .sample (sampleRegistration 2 1 'b' 'r' 5) ++ more)]

def sampleMeddling : SampleUpdate :=
  sampleSelfUpdate [.put "name" "mine", .removeIn "nodes" "idea", .setField "member_roles" (sampleFp 'c') "epoch" "9"]

def sampleRekeying : SampleUpdate :=
  sampleSelfUpdate [.setField "membership_oplog" (sampleHash 1) "author_pubkey" (hexEncode (sampleKey 'b').toList)]

def sampleGate (u : SampleUpdate) : Except String (List (String × String)) :=
  verifyMemberSelfServiceUpdate sampleSelfService "KB" (some (sampleFp 'b')) (.ok sampleCollection) (.ok u)

def sampleResult (u : SampleUpdate) : Root := sample.root (sample.apply sampleCollection u)

end Mae.Daemon
