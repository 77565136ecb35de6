import Mae.Sync.Membership.Seats

/-! What the derivation reads of the ops it is given. -/

namespace Mae.Sync.Membership

open Std

structure Alike (op op' : MembershipOp) : Prop where
  action : op'.action = op.action
  subject : op'.subject = op.subject
  role : op'.role = op.role
  canInvite : op'.canInvite = op.canInvite
  author : op'.author = op.author
  expiresAt : op'.expiresAt = op.expiresAt
  epoch : op'.epoch = op.epoch
  replication : op.action = .admits ∨ op.action = .setRole → op'.replication = op.replication
  newPubkey : op.action = .rebind → op'.newPubkey = op.newPubkey
  newWrapPubkey : op.action = .rebind → op'.newWrapPubkey = op.newWrapPubkey
  recoveryPubkey : op.action = .registerRecoveryKey → op'.recoveryPubkey = op.recoveryPubkey
  contentHash : op.action = .rebirth →
    (op'.contentHash.filter fun h => h != "") = op.contentHash.filter fun h => h != ""

namespace Alike

variable {op op' : MembershipOp}

lemma refl (op : MembershipOp) : Alike op op := by
  constructor <;> simp

variable (ha : Alike op op')
include ha

lemma expired_eq (now : UInt64) : expired op' now = expired op now := by
  rw [expired, ha.expiresAt, expired]

lemma admitEntry_eq (hrep : op'.replication = op.replication) (isGenesis : Bool) :
    admitEntry op' isGenesis = admitEntry op isGenesis := by
  simp only [admitEntry, ha.subject, ha.role, ha.canInvite, ha.author, ha.epoch, hrep]

lemma overlayRole_eq (hact : op.action = .setRole) (entry : ValidMember) :
    overlayRole entry op' = overlayRole entry op := by
  simp only [overlayRole, ha.role, ha.epoch, ha.replication (Or.inr hact)]

lemma rotate_eq (out : Members) : rotate op' out = rotate op out := by
  simp only [rotate, ha.author, ha.subject]

lemma authorized_eq (C : Crypto) (mp : Members) (owner : String) (governance : Governance) :
    authorized C mp op' owner governance = authorized C mp op owner governance := by
  have hany : ∀ c : Option String, (c.any fun h => h != "") = (c.filter fun h => h != "").isSome := by
    intro c
    cases c with
    | none => rfl
    | some h => by_cases hh : h = "" <;> simp [hh]
  simp only [authorized, ha.author, ha.action, ha.role, ha.subject]
  cases mp[op.author]? with
  | none => rfl
  | some author =>
    cases hact : op.action with
    | rebirth => simp only [hany, ha.contentHash hact]
    | rebind => simp only [ha.newPubkey hact, ha.newWrapPubkey hact]
    | registerRecoveryKey => simp only [ha.recoveryPubkey hact]
    | _ => rfl

end Alike

structure TreesAlike (t t' : OpTree) (hs : List String) : Prop where
  genesisHash : t'.genesisHash = t.genesisHash
  owner : t'.owner = t.owner
  rootReplication : (t'.op t.genesisHash).replication = (t.op t.genesisHash).replication
  op : ∀ h ∈ hs, Alike (t.op h) (t'.op h)
  past : ∀ h ∈ hs, t'.past h = t.past h

namespace TreesAlike

variable {t t' : OpTree} {hs live : List String} {governance : Governance} {now : UInt64}
variable (ha : TreesAlike t t' hs)
include ha

lemma subset (hsub : live ⊆ hs) : TreesAlike t t' live :=
  ⟨ha.genesisHash, ha.owner, ha.rootReplication, fun h hh => ha.op h (hsub hh), fun h hh => ha.past h (hsub hh)⟩

variable {h : String}

lemma removes_iff {target : String} (hh : h ∈ hs) : t'.Removes target h ↔ t.Removes target h := by
  rw [OpTree.Removes, (ha.op h hh).action, (ha.op h hh).subject, OpTree.Removes]

lemma effectiveRemoval_eq (target : String) :
    effectiveRemoval t' target governance hs = effectiveRemoval t target governance hs := by
  rw [effectiveRemoval, effectiveRemoval]
  generalize (∅ : Finset String) = authors
  induction hs generalizing authors with
  | nil => rfl
  | cons h rest ih =>
    have ih := ih (ha.subset (List.subset_cons_self h rest))
    simp only [removalScan, ha.removes_iff List.mem_cons_self, (ha.op h List.mem_cons_self).author, ih]

lemma dominated_eq (hh : h ∈ hs) : dominated t' governance hs h = dominated t governance hs h := by
  simp only [dominated, (ha.op h hh).subject, ha.effectiveRemoval_eq, ha.past h hh]

lemma replication_of_seats (hh : h ∈ hs) (hseat : Seats t governance now hs h) :
    (t'.op h).replication = (t.op h).replication :=
  hseat.1.elim (fun heq => heq ▸ ha.rootReplication) fun hact => (ha.op h hh).replication (Or.inl hact)

lemma seats_iff (hh : h ∈ hs) : Seats t' governance now hs h ↔ Seats t governance now hs h := by
  rw [Seats, ha.genesisHash, (ha.op h hh).action, ha.dominated_eq hh, (ha.op h hh).expired_eq, Seats]

lemma overlaid_eq (hh : h ∈ hs) (hrep : (t'.op h).replication = (t.op h).replication) :
    overlaid t' hs h = overlaid t hs h := by
  rw [overlaid, ha.genesisHash, (ha.op h hh).admitEntry_eq hrep]
  apply List.foldl_ext
  intro entry sh hsh
  rw [overlayStep, overlayStep, (ha.op sh hsh).action, (ha.op sh hsh).subject, (ha.op h hh).subject, ha.past sh hsh]
  split_ifs with hc
  · exact (ha.op sh hsh).overlayRole_eq hc.1 entry
  · rfl

lemma admitPass_eq : admitPass t' governance now hs = admitPass t governance now hs := by
  apply List.foldl_ext
  intro out h hh
  rw [admitStep, admitStep, (ha.op h hh).subject]
  by_cases hseat : Seats t governance now hs h
  · rw [if_pos hseat, if_pos ((ha.seats_iff hh).mpr hseat), ha.overlaid_eq hh (ha.replication_of_seats hh hseat)]
  · rw [if_neg hseat, if_neg fun hc => hseat ((ha.seats_iff hh).mp hc)]

lemma buildMembers_eq : buildMembers t' governance now hs = buildMembers t governance now hs := by
  rw [buildMembers, ha.admitPass_eq]
  apply List.foldl_ext
  intro out h hh
  rw [rebindStep, rebindStep, (ha.op h hh).action, (ha.op h hh).rotate_eq]

end TreesAlike

namespace TreesAlike

variable {C : Crypto} {t t' : OpTree} {governance : Governance} {now : UInt64} {V : Finset String} {h : String}
variable (ha : TreesAlike t t' t.order)
include ha

lemma live (V : Finset String) : TreesAlike t t' (t.live V) := ha.subset fun _ hh => (mem_live.mp hh).1

lemma membershipAt_eq (hh : h ∈ t.order) (hlive : t'.live (V ∩ t.past h) = t.live (V ∩ t.past h)) :
    membershipAt t' governance now V h = membershipAt t governance now V h := by
  rw [membershipAt, ha.past h hh, hlive, (ha.live _).buildMembers_eq, membershipAt]

lemma killed_eq (hh : h ∈ t.order) (hlive : t'.live V = t.live V) :
    killed t' governance V h = killed t governance V h := by
  rw [killed, (ha.op h hh).action, (ha.op h hh).author, hlive, (ha.live V).effectiveRemoval_eq]
  congr 1
  cases hr : effectiveRemoval t (t.op h).author governance (t.live V) with
  | none => rfl
  | some rh =>
    have hrh := (mem_live.mp (removalScan_mem hr).1).1
    have hc : t'.Concurrent h rh ↔ t.Concurrent h rh := by
      rw [OpTree.Concurrent, ha.past h hh, ha.past rh hrh, OpTree.Concurrent]
    simp only [Option.any_some, hc]

lemma survives_eq (hh : h ∈ t.order) (hpast : t'.live (V ∩ t.past h) = t.live (V ∩ t.past h))
    (hlive : t'.live V = t.live V) : survives C t' governance now V h = survives C t governance now V h := by
  rw [survives, (ha.op h hh).expired_eq, ha.genesisHash, ha.membershipAt_eq hh hpast, (ha.op h hh).authorized_eq,
    ha.owner, ha.killed_eq hh hlive, survives]

lemma deriveFrom_eq (horder : t'.order = t.order) (view : MembershipView) :
    deriveFrom C t' now governance view = deriveFrom C t now governance view := by
  have hlive : ∀ V, t'.live V = t.live V := fun V => by rw [OpTree.live, horder, OpTree.live]
  have hpass : validityPass C t' governance now = validityPass C t governance now := by
    funext V
    rw [validityPass, horder]
    congr 1
    exact List.filter_congr fun h hh => ha.survives_eq hh (hlive _) (hlive V)
  have hvalid : validSet C t' governance now = validSet C t governance now := by
    rw [validSet, validityLoop, hpass, horder, validSet, validityLoop]
  rw [deriveFrom, hvalid, ha.owner, hlive, (ha.live _).buildMembers_eq, deriveFrom]

end TreesAlike

end Mae.Sync.Membership
