import Mae.Library.Settling
import Mae.Sync.Membership.CausalOrder

/-! `derive_valid_members_governed`: the validity loop and the member map. -/

namespace Mae.Sync.Membership

open Std Library.Settling

abbrev Members := ExtTreeMap String ValidMember

/-- The locals of `derive_valid_members_governed` once the causal order is known. -/
structure OpTree where
  byHash : OpIndex
  genesisHash : String
  order : List String
  anc : ExtTreeMap String (Finset String)

def ancestorIndex (byHash : OpIndex) (order : List String) : ExtTreeMap String (Finset String) :=
  order.foldl (fun m h => m.insert h (ancestors byHash h)) ∅

def OpTree.grow (byHash : OpIndex) (genesisHash : String) : OpTree where
  byHash := byHash
  genesisHash := genesisHash
  order := causalOrder byHash genesisHash
  anc := ancestorIndex byHash (causalOrder byHash genesisHash)

def isRemoval (action : MembershipAction) : Bool := action == .remove || action == .revoke

namespace OpTree

def op (t : OpTree) (h : String) : MembershipOp := t.byHash[h]!.op

def past (t : OpTree) (h : String) : Finset String := (t.anc[h]?).getD ∅

def owner (t : OpTree) : String := (t.op t.genesisHash).subject

def Concurrent (t : OpTree) (h k : String) : Prop := h ∉ t.past k ∧ k ∉ t.past h
  deriving Decidable

def Removes (t : OpTree) (target h : String) : Prop :=
  isRemoval (t.op h).action = true ∧ (t.op h).subject = target
  deriving Decidable

/-- What the loops over `order` that skip the ops outside `valid` visit. -/
def live (t : OpTree) (valid : Finset String) : List String := t.order.filter fun h => h ∈ valid

end OpTree

def Governance.needed : Governance → ℕ
  | .singleOwner => 1
  | .quorum threshold => max threshold 1

def removalScan (t : OpTree) (needed : ℕ) (target : String) : List String → Finset String → Option String
  | [], _ => none
  | h :: rest, authors =>
    if t.Removes target h then
      if needed ≤ (insert (t.op h).author authors).card then some h
      else removalScan t needed target rest (insert (t.op h).author authors)
    else removalScan t needed target rest authors

variable (C : Crypto) (t : OpTree)

def effectiveRemoval (target : String) (governance : Governance) (live : List String) : Option String :=
  removalScan t governance.needed target live ∅

def authorized (mp : Members) (op : MembershipOp) (owner : String) (governance : Governance) : Bool :=
  match mp[op.author]? with
  | none => false
  | some author =>
    match op.action with
    | .admits =>
      if author.role ≠ .owner ∧ ¬ author.canInvite then false
      else author.role.includes (op.role.getD .viewer)
    | .setRole => author.role == .owner && mp.contains op.subject
    | .remove | .revoke =>
      let ownerProtected := governance == .singleOwner && op.subject == owner
      author.role == .owner && !ownerProtected && mp.contains op.subject
    | .setGovernance => author.role == .owner
    | .setEncryption => author.role == .owner
    | .rebirth =>
      author.role == .owner && (op.contentHash.any fun h => h != "") && op.subject != ""
    | .rebind =>
      match op.newPubkey with
      | some npk =>
        op.newWrapPubkey.isSome && fingerprintOf C npk == op.subject && op.subject != op.author &&
          !mp.contains op.subject
      | none => false
    | .registerRecoveryKey => op.subject == op.author && op.recoveryPubkey.isSome

def expired (op : MembershipOp) (now : UInt64) : Bool := op.expiresAt.any fun exp => decide (exp ≤ now)

def overlayRole (entry : ValidMember) (s : MembershipOp) : ValidMember :=
  match s.role with
  | some nr => { entry with role := nr, epoch := s.epoch, replication := s.replication }
  | none => entry

def admitEntry (op : MembershipOp) (isGenesis : Bool) : ValidMember where
  principal := op.subject
  role := op.role.getD (if isGenesis then .owner else .viewer)
  canInvite := isGenesis || op.canInvite
  invitedBy := op.author
  epoch := op.epoch
  replication := op.replication

def overlayStep (h : String) (entry : ValidMember) (sh : String) : ValidMember :=
  if (t.op sh).action = .setRole ∧ (t.op sh).subject = (t.op h).subject ∧ h ∈ t.past sh then
    overlayRole entry (t.op sh)
  else entry

def overlaid (live : List String) (h : String) : ValidMember :=
  live.foldl (overlayStep t h) (admitEntry (t.op h) (h == t.genesisHash))

def dominated (governance : Governance) (live : List String) (h : String) : Bool :=
  (effectiveRemoval t (t.op h).subject governance live).any fun rh => decide (rh ∉ t.past h)

def Seats (governance : Governance) (now : UInt64) (live : List String) (h : String) : Prop :=
  (h = t.genesisHash ∨ (t.op h).action = .admits) ∧ dominated t governance live h = false ∧
    expired (t.op h) now = false
  deriving Decidable

def admitStep (governance : Governance) (now : UInt64) (live : List String) (out : Members) (h : String) : Members :=
  if Seats t governance now live h then out.insert (t.op h).subject (overlaid t live h) else out

def admitPass (governance : Governance) (now : UInt64) (live : List String) : Members :=
  live.foldl (admitStep t governance now live) ∅

def repoint (old new : String) (m : ValidMember) : ValidMember :=
  if m.invitedBy = old then { m with invitedBy := new } else m

def rotate (op : MembershipOp) (out : Members) : Members :=
  match out[op.author]? with
  | some entry =>
    ((out.erase op.author).insert op.subject { entry with principal := op.subject }).map
      fun _ m => repoint op.author op.subject m
  | none => out

def rebindStep (out : Members) (h : String) : Members :=
  if (t.op h).action = .rebind then rotate (t.op h) out else out

def buildMembers (governance : Governance) (now : UInt64) (live : List String) : Members :=
  live.foldl (rebindStep t) (admitPass t governance now live)

def membershipAt (governance : Governance) (now : UInt64) (valid : Finset String) (h : String) : Members :=
  buildMembers t governance now (t.live (valid ∩ t.past h))

def killed (governance : Governance) (valid : Finset String) (h : String) : Bool :=
  !isRemoval (t.op h).action &&
    (effectiveRemoval t (t.op h).author governance (t.live valid)).any fun rh => decide (t.Concurrent h rh)

def survives (governance : Governance) (now : UInt64) (valid : Finset String) (h : String) : Bool :=
  !expired (t.op h) now && (h == t.genesisHash ||
    (authorized C (membershipAt t governance now valid h) (t.op h) t.owner governance && !killed t governance valid h))

def validityPass (governance : Governance) (now : UInt64) (valid : Finset String) : Finset String :=
  (t.order.filter fun h => survives C t governance now valid h).toFinset

/-- The validity loop: the set held at its exit and whether it was left through `stable`. -/
def validityLoop (C : Crypto) (t : OpTree) (governance : Governance) (now : UInt64) : Finset String × Bool :=
  settle (validityPass C t governance now) (t.order.length + 2) t.order.toFinset

def validSet (governance : Governance) (now : UInt64) : Finset String :=
  (validityLoop C t governance now).1

def orphans (owner : String) (members : Members) : List String :=
  (members.toList.filter fun e => e.2.principal != owner && !members.contains e.2.invitedBy).map (·.2.principal)

def cascadeLoop (owner : String) : ℕ → Members → Members
  | 0, members => members
  | fuel + 1, members =>
    if (orphans owner members).isEmpty then members
    else cascadeLoop owner fuel ((orphans owner members).foldl (·.erase ·) members)

def applyView (view : MembershipView) (owner : String) (members : Members) : Members :=
  let members := if view.cascade = .cascadeAll then cascadeLoop owner (members.size + 1) members else members
  if view.blocklist = ∅ then members else members.filter fun p _ => p ∉ view.blocklist

def visible (view : MembershipView) (ops : List SignedMembershipOp) : List SignedMembershipOp :=
  ops.filter fun o => honored C (buildRecoveryRegistry C ops) o && decide (o.op.author ∉ view.blocklist)

def anchoredTree (crypto : List SignedMembershipOp) (anchor : Key32) : Option OpTree :=
  (crypto.find? (isGenesis anchor)).map fun g => OpTree.grow (indexByHash C crypto) (g.chainHash C)

def deriveFrom (now : UInt64) (governance : Governance) (view : MembershipView) : Members :=
  applyView view t.owner (buildMembers t governance now (t.live (validSet C t governance now)))

def deriveValidMembersGoverned (ops : List SignedMembershipOp) (anchor : Key32) (now : UInt64) (governance : Governance)
    (view : MembershipView) :
    Members :=
  match anchoredTree C (visible C view ops) anchor with
  | some t => deriveFrom C t now governance view
  | none => ∅

def deriveValidMembersWith (ops : List SignedMembershipOp) (anchor : Key32) (now : UInt64) (view : MembershipView) :
    Members :=
  deriveValidMembersGoverned C ops anchor now .singleOwner view

def deriveValidMembers (ops : List SignedMembershipOp) (anchor : Key32) (now : UInt64) : Members :=
  deriveValidMembersWith C ops anchor now {}

end Mae.Sync.Membership
