import Mae.Sync.Membership.Rotation

/-! On an unbranched log a rotated seat answers to the ops that name its first holder. -/

namespace Mae.Sync.Membership

open Std

variable {t : OpTree} {now : UInt64}

def originStep (t : OpTree) (origin : String → Option String) (h : String) : String → Option String :=
  if (t.op h).action = .rebind ∧ (origin (t.op h).author).isSome = true then fun q =>
    if q = (t.op h).subject then origin (t.op h).author else if q = (t.op h).author then none else origin q
  else origin

def ownSeat (t : OpTree) (valid : List String) (p : String) : Option String :=
  if (seat t valid p).entry.isSome then some p else none

def origin (t : OpTree) (valid : List String) : String → Option String :=
  valid.foldl (originStep t) (ownSeat t valid)

def Holds (seats out : Members) (origin : String → Option String) : Prop :=
  ∀ q, out[q]?.map ValidMember.data = (origin q).bind fun p => seats[p]?.map ValidMember.data

section

variable {out seats : Members} {origin : String → Option String} (ho : Holds seats out origin)
  (hseated : ∀ q p, origin q = some p → p ∈ seats)
include ho hseated

lemma Holds.mem_iff (q : String) : q ∈ out ↔ (origin q).isSome = true := by
  rw [mem_iff_data, ho q]
  cases hq : origin q with
  | none => rfl
  | some p => exact iff_of_true (mem_iff_data.mp (hseated q p hq)) rfl

lemma Holds.step (h : String) : Holds seats (rebindStep t out h) (originStep t origin h) ∧
      ∀ q p, originStep t origin h q = some p → p ∈ seats := by
  have hmem := ho.mem_iff hseated (t.op h).author
  rw [rebindStep, originStep]
  by_cases hact : (t.op h).action = .rebind
  · by_cases ha : (origin (t.op h).author).isSome = true
    · rw [if_pos hact, if_pos ⟨hact, ha⟩]
      refine ⟨fun q => ?_, fun q p hq => ?_⟩
      · rw [rotate_data, if_pos (hmem.mpr ha)]
        beta_reduce
        split_ifs
        · exact ho (t.op h).author
        · rfl
        · exact ho q
      · beta_reduce at hq
        split_ifs at hq
        · exact hseated _ p hq
        · exact hseated q p hq
    · rw [if_pos hact, if_neg (fun hc => ha hc.2)]
      refine ⟨fun q => ?_, hseated⟩
      rw [rotate_data, if_neg (fun hc => ha (hmem.mp hc))]
      exact ho q
  · rw [if_neg hact, if_neg (fun hc => hact hc.1)]
    exact ⟨ho, hseated⟩

lemma Holds.foldl (hs : List String) : Holds seats (hs.foldl (rebindStep t) out) (hs.foldl (originStep t) origin) ∧
      ∀ q p, hs.foldl (originStep t) origin q = some p → p ∈ seats := by
  induction hs generalizing out origin with
  | nil => exact ⟨ho, hseated⟩
  | cons h hs ih =>
    obtain ⟨ho', hseated'⟩ := ho.step hseated h
    exact ih ho' hseated'

end

lemma buildMembers_holds (hroot : (t.op t.genesisHash).action = .admits) {valid : List String}
    (hq : InSequence t valid) (hexp : ∀ h ∈ valid, expired (t.op h) now = false) :
    Holds (admitPass t .singleOwner now valid) (buildMembers t .singleOwner now valid) (origin t valid) ∧
      ∀ q p, origin t valid q = some p → p ∈ admitPass t .singleOwner now valid := by
  have hseat := fun p => admitPass_eq_seat hroot hq hexp p
  apply Holds.foldl
  · intro q
    rw [ownSeat]
    cases he : (seat t valid q).entry with
    | none => simp [hseat, he]
    | some e => simp [hseat, he]
  · intro q p hp
    rw [ownSeat] at hp
    split_ifs at hp with hs
    cases hp
    rwa [ExtTreeMap.mem_iff_isSome_getElem?, hseat]

theorem rotated_seat_answers_to_its_origin (C : Crypto) (ops : List SignedMembershipOp) (anchor : Key32)
    (now : UInt64) (g : SignedMembershipOp) (rest : List SignedMembershipOp) (t : OpTree)
    (hl : ChainLog C anchor g rest) (hs : SameRecords (g :: rest) (visible C {} ops))
    (ht : anchoredTree C (visible C {} ops) anchor = some t) (q : String) :
    let valid := t.live (validSet C t .singleOwner now)
    (q ∉ deriveValidMembers C ops anchor now ↔ ∀ p, carried t valid p = q → (seat t valid p).entry = none) ∧
      ∀ r, (deriveValidMembers C ops anchor now)[q]?.map (·.role) = some r ↔
        ∃ p, origin t valid q = some p ∧ (seat t valid p).entry.map (·.role) = some r := by
  intro valid
  have hu : Unbranched t := by
    obtain rfl := Option.mem_unique ht (hl.anchoredTree_eq hs)
    exact hl.unbranched hs
  have hvalid : valid = accepted C t .singleOwner now t.order := hu.live_validSet
  have hq : InSequence t valid := hvalid ▸ hu.inSequence.sublist (accepted_sublist C t .singleOwner now t.order)
  have hexp : ∀ h ∈ valid, expired (t.op h) now = false := fun h hh => accepted_not_expired (hvalid ▸ hh)
  have hholds := (buildMembers_holds hu.root hq hexp).1
  rw [deriveValidMembers_eq ht]
  refine ⟨?_, fun r => ?_⟩
  · rw [buildMembers, mem_foldl_rebindStep]
    push Not
    refine forall_congr' fun p => ?_
    rw [ExtTreeMap.mem_iff_isSome_getElem?, admitPass_eq_seat hu.root hq hexp, imp_not_comm, Bool.not_eq_true,
      Option.isSome_eq_false_iff, Option.isNone_iff_eq_none]
  · have hrole : ∀ e : Option ValidMember, e.map (·.role) = (e.map ValidMember.data).map (·.role) := by
      intro e
      cases e <;> rfl
    rw [hrole, hholds q]
    simp only [← admitPass_eq_seat hu.root hq hexp, hrole]
    cases origin t valid q with
    | none => simp
    | some p => simp

def shieldedLog (manage : SignedMembershipOp) : List SignedMembershipOp :=
  [sampleGenesis, sampleLinked 2 1 'o' .admits (sampleFp 'a') (some .editor),
    sampleSigned 3 'a' (sampleRebind (sampleHash 2) 'a' 'b'), manage]

def takenOverOps : List SignedMembershipOp :=
  [sampleLinked 2 1 'o' .admits (sampleFp 'a') (some .editor),
    sampleLinked 3 2 'o' .admits (sampleFp 'z') (some .viewer),
    sampleSigned 4 'a' (sampleRebind (sampleHash 3) 'a' 'b'), sampleSigned 5 'z' (sampleRebind (sampleHash 4) 'z' 'a'),
    sampleLinked 6 5 'o' .remove (sampleFp 'b') none, sampleLinked 7 6 'o' .remove (sampleFp 'a') none]

theorem rotated_seat_goes_with_its_origin :
    ∃ t, anchoredTree .sample (visible .sample {} (sampleGenesis :: takenOverOps)) (sampleKey 'o') = some t ∧
      sampleHash 6 ∈ validSet .sample t .singleOwner 0 ∧
      sampleFp 'b' ∉ deriveValidMembers .sample (sampleGenesis :: takenOverOps) (sampleKey 'o') 0 ∧
        ∀ p, carried t (t.live (validSet .sample t .singleOwner 0)) p = sampleFp 'b' →
          (seat t (t.live (validSet .sample t .singleOwner 0)) p).entry = none := by
  have hl : ChainLog .sample (sampleKey 'o') sampleGenesis takenOverOps :=
    ⟨by decide +kernel, by decide +kernel, by decide +kernel⟩
  have hvis : visible .sample {} (sampleGenesis :: takenOverOps) = sampleGenesis :: takenOverOps := by decide +kernel
  have hout : sampleFp 'b' ∉ deriveValidMembers .sample (sampleGenesis :: takenOverOps) (sampleKey 'o') 0 := by
    decide +kernel
  obtain ⟨t, ht, hmem⟩ : ∃ t, anchoredTree .sample (visible .sample {} (sampleGenesis :: takenOverOps))
      (sampleKey 'o') = some t ∧ sampleHash 6 ∈ validSet .sample t .singleOwner 0 := by decide +kernel
  have hs : SameRecords (sampleGenesis :: takenOverOps) (visible .sample {} (sampleGenesis :: takenOverOps)) :=
    fun o => by rw [hvis]
  exact ⟨t, ht, hmem, hout, (rotated_seat_answers_to_its_origin .sample _ (sampleKey 'o') 0
    sampleGenesis takenOverOps t hl hs ht (sampleFp 'b')).1.mp hout⟩

def Shielded (manage : SignedMembershipOp) : Prop :=
  (∃ t, anchoredTree .sample (visible .sample {} (shieldedLog manage)) (sampleKey 'o') = some t ∧
    t.live (validSet .sample t .singleOwner 0) = [sampleHash 1, sampleHash 2, sampleHash 3, sampleHash 4]) ∧
  (deriveValidMembers .sample (shieldedLog manage) (sampleKey 'o') 0)[sampleFp 'b']?.map (·.role) = some .editor
  deriving Decidable

theorem rotation_shields_from_management : Shielded (sampleLinked 4 3 'o' .remove (sampleFp 'b') none) ∧
      Shielded (sampleLinked 4 3 'o' .setRole (sampleFp 'b') (some .viewer)) := by
  decide +kernel

end Mae.Sync.Membership
