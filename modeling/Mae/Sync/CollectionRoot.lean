import Mae.Sync.ContentOps
import Mae.Sync.Membership.Readers

/-! The root map of a collection document: what is in it, how it is read, and what the setters write. -/

namespace Mae.Sync.Membership

def Role.parse (s : String) : Option Role := [Role.owner, .editor, .viewer].find? fun r => r.asStr == s

lemma Role.parse_asStr (r : Role) : Role.parse r.asStr = some r := by cases r <;> decide

def Encryption.parse (s : String) : Option Encryption :=
  if s = "none" then some .none else if s = "e2e" then some .e2e else none

def MembershipAction.parse (s : String) : Option MembershipAction :=
  [MembershipAction.admits, .remove, .setRole, .revoke, .setGovernance, .setEncryption, .rebind, .registerRecoveryKey,
    .rebirth].find? fun a => a.asStr == s

def ReplicationPolicy.parse (s : String) : Option ReplicationPolicy :=
  [ReplicationPolicy.full, .queryOnly].find? fun r => r.asStr == s

end Mae.Sync.Membership

namespace Mae.Sync

open Std (ExtTreeMap)
open Sync.Membership

inductive JoinPolicy where
  | restrictive | invite | permissive
  deriving DecidableEq, Repr

def JoinPolicy.asStr : JoinPolicy → String
  | .restrictive => "restrictive"
  | .invite => "invite"
  | .permissive => "permissive"

def JoinPolicy.parse (s : String) : Option JoinPolicy :=
  [JoinPolicy.restrictive, .invite, .permissive].find? fun p => p.asStr == s

inductive Transport where
  | hub | p2p
  deriving DecidableEq, Repr

inductive TransportPolicy where
  | hub | p2p | both
  deriving DecidableEq, Repr

namespace TransportPolicy

def asStr : TransportPolicy → String
  | hub => "hub"
  | p2p => "p2p"
  | both => "both"

def parse (s : String) : Option TransportPolicy := [hub, p2p, both].find? fun p => p.asStr == s

def allows : TransportPolicy → Transport → Bool
  | both, _ | hub, .hub | p2p, .p2p => true
  | _, _ => false

def union : TransportPolicy → TransportPolicy → TransportPolicy
  | hub, hub => hub
  | p2p, p2p => p2p
  | _, _ => both

end TransportPolicy

/-- How `yrs` shows a map. -/
def showMap (entries : List (String × String)) : String :=
  "\x7b" ++ ", ".intercalate (entries.map fun e => e.1 ++ ": " ++ e.2) ++ "\x7d"

/-- A value in a map of the collection. -/
inductive Item where
  | any (text : String)
  | map (fields : ExtTreeMap String String)

def Item.toStr : Item → String
  | any text => text
  | map fields => showMap fields.toList

def Item.fields? : Item → Option (ExtTreeMap String String)
  | any _ => none
  | map fields => some fields

/-- A value in the root map. -/
inductive Cell where
  | any (text : String)
  | array (items : List String)
  | map (entries : ExtTreeMap String Item)

def Cell.toStr : Cell → String
  | any text => text
  | array items => "[" ++ ", ".intercalate items ++ "]"
  | map entries => showMap (entries.toList.map fun e => (e.1, e.2.toStr))

abbrev Root := ExtTreeMap String Cell

def parseU64 (s : String) : Option UInt64 := (parseUsize s.toList).map UInt64.ofNat

def hexValue (c : Char) : Option ℕ :=
  if '0' ≤ c ∧ c ≤ '9' then some (c.toNat - 48)
  else if 'a' ≤ c ∧ c ≤ 'f' then some (c.toNat - 87)
  else if 'A' ≤ c ∧ c ≤ 'F' then some (c.toNat - 55)
  else none

def hexDecodeChars : List Char → Option Bytes
  | [] => some []
  | [_] => none
  | a :: b :: cs => do
    let high ← hexValue a
    let low ← hexValue b
    let rest ← hexDecodeChars cs
    return UInt8.ofNat (16 * high + low) :: rest

def hexDecode (s : String) : Option Bytes := hexDecodeChars s.toList

def hexKey32 (s : String) : Option Key32 := (hexDecode s).bind key32

structure Member where
  fingerprint : String
  role : Role
  label : String
  deriving DecidableEq

namespace Root

section Readers

variable (root : Root) (key principal : String)

def text : Option String := root[key]?.map Cell.toStr

def entries : ExtTreeMap String Item :=
  match root[key]? with
  | some (.map entries) => entries
  | _ => ∅

def record (sub : String) : Option (ExtTreeMap String String) := ((root.entries key)[sub]?).bind Item.fields?

def arrayAt : List String :=
  match root[key]? with
  | some (.array items) => items
  | _ => []

def name : String := (root.text "name").getD ""

def creator : String := (root.text "creator").getD ""

def owner : String := (root.text "owner").getD ""

def schemaVersion : ℕ :=
  (((root.text "schema").bind fun s => parseUsize s.toList).filter fun n => decide (n < 2 ^ 32)).getD 0

def listNodes : List (String × String) := (root.entries "nodes").toList.map fun e => (e.1, e.2.toStr)

lemma nodup_listNodes : (root.listNodes.map (·.1)).Nodup := by
  rw [listNodes, List.map_map, List.nodup_iff_pairwise_ne, List.pairwise_map]
  exact Std.ExtTreeMap.distinct_keys_toList.imp fun hne heq => hne (by simpa using heq)

def hasNode (nodeId : String) : Bool := (root.entries "nodes").contains nodeId

def legacyMembers : List String := root.arrayAt "members"

def roleOf : Option Role :=
  (root.record "member_roles" principal).bind fun entry => entry["role"]?.bind Role.parse

def memberRoles : List Member :=
  (root.entries "member_roles").toList.filterMap fun e => e.2.fields?.map fun entry =>
    { fingerprint := e.1
      role := (entry["role"]?.bind Role.parse).getD .viewer
      label := entry["label"]?.getD "" }

def epochOf : UInt64 :=
  (((root.record "member_roles" principal).bind fun entry => entry["epoch"]?).bind parseU64).getD 0

/-- `entry_role_epoch`. -/
def roleEpoch (principal : String) : Option (Role × UInt64) :=
  (root.roleOf principal).map fun role => (role, root.epochOf principal)

def isRetired : Bool := (root.entries "retired").contains principal

def joinPolicy : JoinPolicy := ((root.text "join_policy").bind JoinPolicy.parse).getD .invite

def transportPolicyRaw : Option TransportPolicy := (root.text "transport_policy").bind TransportPolicy.parse

def transportPolicy : TransportPolicy := root.transportPolicyRaw.getD .hub

def encryption : Encryption := ((root.text "encryption").bind Encryption.parse).getD .none

def embeddingModel : Option String := (root.text "embedding_model").filter fun s => s != ""

def shareDerivedArtifacts : Bool := (root.text "share_derived_artifacts").any fun s => s == "1"

end Readers

/-- `none` if a required field is missing or malformed. -/
def decodeOpRecord (rec : ExtTreeMap String String) : Option SignedMembershipOp := do
  let get := fun key => rec[key]?
  let filled := fun key => (rec[key]?).filter fun s => s != ""
  let role ← match filled "role" with
    | none => some none
    | some s => (Role.parse s).map some
  let expiresAt ← match filled "expires_at" with
    | none => some none
    | some s => (parseU64 s).map some
  let sig ← (get "sig").bind hexDecode
  let authorPubkey ← (get "author_pubkey").bind hexKey32
  let kbId ← get "kb_id"
  let action ← (get "action").bind MembershipAction.parse
  let subject ← get "subject"
  let author ← get "author"
  let issuedAt ← (get "issued_at").bind parseU64
  return {
    op := {
      kbId, action, subject, role
      canInvite := get "can_invite" == some "1"
      author, issuedAt, expiresAt
      epoch := ((get "epoch").bind parseU64).getD 0
      prevHash := (get "prev_hash").getD ""
      wrappedKey := (filled "wrapped_key").bind hexDecode
      newPubkey := (filled "new_pubkey").bind hexKey32
      newWrapPubkey := (filled "new_wrap_pubkey").bind hexKey32
      recoveryPubkey := (filled "recovery_pubkey").bind hexKey32
      replication := ((get "replication").bind ReplicationPolicy.parse).getD .full
      contentHash := filled "content_hash" }
    sig, authorPubkey }

def oplogOps (root : Root) : List SignedMembershipOp :=
  (root.entries "membership_oplog").toList.filterMap fun e => e.2.fields?.bind decodeOpRecord

end Root

inductive Write where
  | put (key text : String)
  | newMap (key : String)
  | putIn (key sub text : String)
  | putRecord (key sub : String) (fields : List (String × String))
  | setField (key sub field text : String)
  | removeIn (key sub : String)
  deriving DecidableEq

def Write.path : Write → String × Option String
  | .put key _ | .newMap key => (key, none)
  | .putIn key sub _ | .putRecord key sub _ | .setField key sub _ _ | .removeIn key sub => (key, some sub)

namespace Root

variable (root : Root)

def modifyMap (key : String) (f : ExtTreeMap String Item → ExtTreeMap String Item) : Root :=
  match root[key]? with
  | some (.map entries) => root.insert key (.map (f entries))
  | _ => root

def write : Write → Root
  | .put key text => root.insert key (.any text)
  | .newMap key => root.insert key (.map ∅)
  | .putIn key sub text => root.modifyMap key fun m => m.insert sub (.any text)
  | .putRecord key sub fields => root.modifyMap key fun m => m.insert sub (.map (ExtTreeMap.ofList fields))
  | .setField key sub field text => root.modifyMap key fun m =>
      match m[sub]? with
      | some (.map fields) => m.insert sub (.map (fields.insert field text))
      | _ => m
  | .removeIn key sub => root.modifyMap key fun m => m.erase sub

def writes (ws : List Write) : Root := ws.foldl write root

section Frame

variable {root : Root} {key sub : String} {f : ExtTreeMap String Item → ExtTreeMap String Item}

lemma getElem?_modifyMap_of_ne {k : String} (h : k ≠ key) : (root.modifyMap k f)[key]? = root[key]? := by
  rw [Root.modifyMap]
  split
  · rw [ExtTreeMap.getElem?_insert]
    simp [h]
  · rfl

lemma getElem?_write_of_ne {w : Write} (h : w.path.1 ≠ key) : (root.write w)[key]? = root[key]? := by
  cases w with
  | put k text => simp [Root.write, ExtTreeMap.getElem?_insert, show k ≠ key from h]
  | newMap k => simp [Root.write, ExtTreeMap.getElem?_insert, show k ≠ key from h]
  | putIn k s text => exact getElem?_modifyMap_of_ne h
  | putRecord k s fields => exact getElem?_modifyMap_of_ne h
  | setField k s field text => exact getElem?_modifyMap_of_ne h
  | removeIn k s => exact getElem?_modifyMap_of_ne h

lemma entries_modifyMap {k : String} (h : k = key → ∀ m : ExtTreeMap String Item, (f m)[sub]? = m[sub]?) :
    ((root.modifyMap k f).entries key)[sub]? = (root.entries key)[sub]? := by
  by_cases hk : k = key
  · subst hk
    rw [Root.modifyMap]
    split
    · next m hm => simp [Root.entries, hm, h rfl]
    · rfl
  · rw [Root.entries, getElem?_modifyMap_of_ne hk, Root.entries]

lemma entries_write_of_ne {w : Write} (hnone : w.path ≠ (key, none)) (hsome : w.path ≠ (key, some sub)) :
    ((root.write w).entries key)[sub]? = (root.entries key)[sub]? := by
  have hcell : w.path.1 ≠ key → ((root.write w).entries key)[sub]? = (root.entries key)[sub]? := by
    intro h
    rw [Root.entries, getElem?_write_of_ne h, Root.entries]
  cases w with
  | put k text => exact hcell fun h => hnone (Prod.ext h rfl)
  | newMap k => exact hcell fun h => hnone (Prod.ext h rfl)
  | putIn k s text =>
    apply entries_modifyMap
    rintro rfl m
    have hs : s ≠ sub := fun h => hsome (Prod.ext rfl (congrArg some h))
    simp [ExtTreeMap.getElem?_insert, hs]
  | putRecord k s fields =>
    apply entries_modifyMap
    rintro rfl m
    have hs : s ≠ sub := fun h => hsome (Prod.ext rfl (congrArg some h))
    simp [ExtTreeMap.getElem?_insert, hs]
  | setField k s field text =>
    apply entries_modifyMap
    rintro rfl m
    have hs : s ≠ sub := fun h => hsome (Prod.ext rfl (congrArg some h))
    split
    · simp [ExtTreeMap.getElem?_insert, hs]
    · rfl
  | removeIn k s =>
    apply entries_modifyMap
    rintro rfl m
    have hs : s ≠ sub := fun h => hsome (Prod.ext rfl (congrArg some h))
    simp [ExtTreeMap.getElem?_erase, hs]

lemma getElem?_writes_of_ne {ws : List Write} (h : ∀ w ∈ ws, w.path.1 ≠ key) : (root.writes ws)[key]? = root[key]? := by
  induction ws generalizing root with
  | nil => rfl
  | cons w ws ih =>
    obtain ⟨hw, hws⟩ := List.forall_mem_cons.mp h
    exact (ih hws).trans (getElem?_write_of_ne hw)

lemma entries_writes_of_ne {ws : List Write} (hnone : ∀ w ∈ ws, w.path ≠ (key, none))
    (hsome : ∀ w ∈ ws, w.path ≠ (key, some sub)) :
    ((root.writes ws).entries key)[sub]? = (root.entries key)[sub]? := by
  induction ws generalizing root with
  | nil => rfl
  | cons w ws ih =>
    obtain ⟨hw, hws⟩ := List.forall_mem_cons.mp hnone
    obtain ⟨hw', hws'⟩ := List.forall_mem_cons.mp hsome
    exact (ih hws hws').trans (entries_write_of_ne hw hw')

end Frame

def ensureMap (key : String) : List Write :=
  match root[key]? with
  | some (.map _) => []
  | _ => [.newMap key]

/-- `token` is what `fresh_epoch_token` draws. -/
def nextEpoch (prev : Option (Role × UInt64)) (role : Role) (wasRetired : Bool) (token : UInt64) : UInt64 :=
  match prev with
  | some (prevRole, prevEpoch) => if prevRole = role then prevEpoch else token
  | none => if wasRetired then token else 0

def memberFields (role : Role) (label : String) (epoch : UInt64) : List (String × String) :=
  [("role", role.asStr), ("label", label), ("epoch", toString epoch.toNat)]

open Write

def setOwner (principal label : String) (token : UInt64) : List Write :=
  [put "owner" principal, put "creator" label] ++
    (if root["schema"]?.isNone then [put "schema" "2"] else []) ++
    (if root["join_policy"]?.isNone then [put "join_policy" JoinPolicy.invite.asStr] else []) ++
    (if root["pending"]?.isNone then [newMap "pending"] else []) ++ root.ensureMap "member_roles" ++
    [putRecord "member_roles" principal
      (memberFields .owner label (nextEpoch (root.roleEpoch principal) .owner false token))]

def opFields (o : SignedMembershipOp) : List (String × String) :=
  [("kb_id", o.op.kbId), ("action", o.op.action.asStr), ("subject", o.op.subject),
    ("role", (o.op.role.map Role.asStr).getD ""), ("can_invite", if o.op.canInvite then "1" else "0"),
    ("author", o.op.author), ("issued_at", toString o.op.issuedAt.toNat),
    ("expires_at", (o.op.expiresAt.map fun e => toString e.toNat).getD ""), ("epoch", toString o.op.epoch.toNat),
    ("prev_hash", o.op.prevHash), ("sig", hexEncode o.sig), ("author_pubkey", hexEncode o.authorPubkey.toList)] ++
    (o.op.wrappedKey.map fun wk => ("wrapped_key", hexEncode wk)).toList ++
    (o.op.newPubkey.map fun pk => ("new_pubkey", hexEncode pk.toList)).toList ++
    (o.op.newWrapPubkey.map fun pk => ("new_wrap_pubkey", hexEncode pk.toList)).toList ++
    (o.op.recoveryPubkey.map fun pk => ("recovery_pubkey", hexEncode pk.toList)).toList ++
    ((o.op.contentHash.filter fun h => h != "").map fun h => ("content_hash", h)).toList ++
    (if o.op.replication = .queryOnly then [("replication", ReplicationPolicy.queryOnly.asStr)] else [])

def appendSignedOp (C : Crypto) (o : SignedMembershipOp) : List Write :=
  root.ensureMap "membership_oplog" ++ [.putRecord "membership_oplog" (o.chainHash C) (opFields o)]

def setTransportPolicy (policy : TransportPolicy) : List Write := [.put "transport_policy" policy.asStr]

def resolveLegacy (resolver : String → Option String) (label : String) : String :=
  (resolver label).getD ("legacy:" ++ label)

def migrateIfLegacy (resolver : String → Option String) : Option (List Write) :=
  if 2 ≤ root.schemaVersion then none
  else
    let ownerPrincipal := resolveLegacy resolver root.creator
    let editors := (root.legacyMembers.map fun label => (resolveLegacy resolver label, label)).filter fun m =>
      m.1 != ownerPrincipal
    some <|
      [put "schema" "2", put "owner" ownerPrincipal] ++
        (if root["join_policy"]?.isNone then [put "join_policy" JoinPolicy.invite.asStr] else []) ++
        (if root["pending"]?.isNone then [newMap "pending"] else []) ++ root.ensureMap "member_roles" ++
        [putRecord "member_roles" ownerPrincipal [("role", Role.owner.asStr), ("label", root.creator)]] ++
        editors.map fun m => putRecord "member_roles" m.1 [("role", Role.editor.asStr), ("label", m.2)]

end Root

end Mae.Sync
