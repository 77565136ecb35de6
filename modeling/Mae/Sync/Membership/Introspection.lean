import Mae.Sync.Membership.Readers
import Mae.Sync.Membership.Rotation

/-! The replication policy that introspection reports, against the one that is derived. -/

namespace Mae.Sync.Membership

open Std List

def isSelfAdmit (o : SignedMembershipOp) : Bool :=
  o.op.prevHash == "" && o.op.action == .admits && o.op.subject == o.op.author

def currentReplicationSelfAnchored (C : Crypto) (ops : List SignedMembershipOp) (principal : String) :
    Option ReplicationPolicy :=
  match (cryptoValid C ops).find? isSelfAdmit with
  | none => none
  | some genesis => (replicationHistory C ops genesis.authorPubkey principal).getLast?

variable {C : Crypto} {t : OpTree} {now : UInt64} {p r : String} {pre post : List String}

def Names (t : OpTree) (p h : String) : Prop :=
  (t.op h).subject = p ∧ (h = t.genesisHash ∨ (t.op h).action = .admits ∨ (t.op h).action = .setRole)
  deriving Decidable

/-- The last op that names `p` is one that the derivation counts. -/
structure LastCounts (C : Crypto) (t : OpTree) (now : UInt64) (p r : String) (pre post : List String) : Prop where
  order : t.order = pre ++ r :: post
  last : ∀ h ∈ post, ¬ Names t p h
  names : Names t p r
  valid : r ∈ validSet C t .singleOwner now
  counts : let live := t.live (validSet C t .singleOwner now)
    Seats t .singleOwner now live r ∨ ((t.op r).action = .setRole ∧ (t.op r).role.isSome = true ∧
      ∀ k, (seatOps t .singleOwner now live p).getLast? = some k → k ∈ t.past r)

lemma data_of_foldl_rebindStep {hs : List String} {seats : Members} {d : SeatData}
    (hno : ∀ h ∈ hs, (t.op h).action = .rebind → (t.op h).subject ≠ p)
    (hd : (hs.foldl (rebindStep t) seats)[p]?.map ValidMember.data = some d) :
    seats[p]?.map ValidMember.data = some d := by
  induction hs using List.reverseRecOn with
  | nil => exact hd
  | append_singleton hs h ih =>
    apply ih fun k hk => hno k (mem_append_left _ hk)
    rw [foldl_append, foldl_cons, foldl_nil, rebindStep] at hd
    split_ifs at hd with hact
    · rw [rotate_data, if_neg (hno h (by simp) hact).symm] at hd
      split_ifs at hd <;> exact hd
    · exact hd

lemma find?_eq_of_unique {α : Type*} {q : α → Bool} {l : List α} {g : α} (hg : g ∈ l) (hq : q g = true)
    (honly : ∀ o ∈ l, q o = true → o = g) : l.find? q = some g := by
  cases hf : l.find? q with
  | none => exact absurd hq (find?_eq_none.mp hf g hg)
  | some o => rw [honly o (mem_of_find?_eq_some hf) (find?_some hf)]

lemma getLast?_filterMap_of_last {α β : Type*} {f : α → Option β} {l pre post : List α} {a : α} {b : β}
    (hl : l = pre ++ a :: post) (ha : f a = some b) (hpost : ∀ x ∈ post, f x = none) :
    (l.filterMap f).getLast? = some b := by
  simp [hl, ha, filterMap_eq_nil_iff.mpr hpost]

lemma Rooted.not_mem_past_of_before {byHash : OpIndex} {g a b : String} (hr : Rooted byHash g)
    (hab : Before byHash g a b) : b ∉ (OpTree.grow byHash g).past a := by
  obtain ⟨i, j, hi, hj, hlt⟩ := hab
  intro hb
  rw [grow_past hr hi] at hb
  obtain ⟨k, hk, hbk⟩ := mem_lineage hi hb
  have hkj := hr.atDepth_unique hbk hj
  omega

namespace LastCounts

variable (hl : LastCounts C t now p r pre post)
include hl

lemma live_eq :
    let valid := validSet C t .singleOwner now
    t.live valid = pre.filter (· ∈ valid) ++ r :: post.filter (· ∈ valid) := by
  simp [OpTree.live, hl.order, filter_append, hl.valid]

lemma overlaid_eq {k : String} (hk : (t.op k).subject = p) :
    let valid := validSet C t .singleOwner now
    overlaid t (t.live valid) k = overlayStep t k (overlaid t (pre.filter (· ∈ valid)) k) r := by
  intro valid
  rw [hl.live_eq, overlaid, foldl_append, foldl_cons, foldl_of_fixed (l := post.filter _), ← overlaid]
  intro h hh entry
  apply overlayStep_of_ne
  rw [hk]
  exact fun hc => hl.last h (mem_of_mem_filter hh) ⟨hc.2, .inr (.inr hc.1)⟩

lemma replication_of_seats {byHash : OpIndex} {g : String} (ht : t = OpTree.grow byHash g) (hr : Rooted byHash g)
    {m : ValidMember} (hm : (admitPass t .singleOwner now (t.live (validSet C t .singleOwner now)))[p]? = some m) :
    m.replication = (t.op r).replication := by
  rw [admitPass_getElem?, Option.map_eq_some_iff] at hm
  obtain ⟨k, hk, rfl⟩ := hm
  rw [hl.overlaid_eq (getLast?_seatOps hk).2.1]
  rcases hl.counts with hseat | ⟨hact, hrole, hpast⟩
  · -- Whatever else seats `p` names it, hence stands before the last op that does.
    obtain rfl : k = r := by
      rw [seatOps, ← filterMap_eq_filter, getLast?_filterMap_of_last hl.live_eq (b := r)] at hk
      · exact (Option.some.inj hk).symm
      · simp [Option.guard, hl.names.1, hseat]
      · intro h hh
        rw [Option.guard, if_neg]
        exact fun hc => hl.last h (mem_of_mem_filter hh) ((of_decide_eq_true hc).imp_right fun hs => hs.1.imp_right .inl)
    have hbefore : ∀ a ∈ pre, k ∉ t.past a := by
      intro a ha
      subst ht
      have hpair := hr.causalOrder_spec.2
      rw [show causalOrder byHash g = _ from hl.order, pairwise_append] at hpair
      exact hr.not_mem_past_of_before (hpair.2.2 a ha k mem_cons_self)
    rw [overlayStep, if_neg, overlaid, foldl_of_fixed]
    · rfl
    · exact fun a ha _ => if_neg fun hc => hbefore a (mem_of_mem_filter ha) hc.2.2
    · exact fun hc => (ht ▸ hr.not_mem_past k) hc.2.2
  · obtain ⟨role, hrole⟩ := Option.isSome_iff_exists.mp hrole
    rw [overlayStep, if_pos ⟨hact, hl.names.1.trans (getLast?_seatOps hk).2.1.symm, hpast k hk⟩, overlayRole, hrole]

end LastCounts

def restrictedBy (author : Char) : List SignedMembershipOp :=
  [sampleGenesis, sampleLinked 2 1 'o' .admits (sampleFp 'b') (some .editor),
    sampleSigned 3 author { sampleOp (sampleHash 2) author .setRole (sampleFp 'b') (some .editor) with
      replication := .queryOnly }]

end Mae.Sync.Membership
