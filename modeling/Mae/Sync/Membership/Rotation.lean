import Mae.Sync.Membership.Unbranched

/-! Where the rebind post-pass carries the seats of the members. -/

namespace Mae.Sync.Membership

open Std ExtTreeMap List

structure SeatData where
  role : Role
  canInvite : Bool
  epoch : UInt64
  replication : ReplicationPolicy
  deriving DecidableEq

def ValidMember.data (m : ValidMember) : SeatData := ⟨m.role, m.canInvite, m.epoch, m.replication⟩

lemma repoint_data (old new : String) (m : ValidMember) : (repoint old new m).data = m.data := by
  rw [repoint]
  split_ifs <;> rfl

open ValidMember

lemma rotate_data (op : MembershipOp) (out : Members) (q : String) : (rotate op out)[q]?.map data =
      if op.author ∈ out then
        if q = op.subject then out[op.author]?.map data
        else if q = op.author then none else out[q]?.map data
      else out[q]?.map data := by
  cases ha : out[op.author]? with
  | none =>
    have hnot : op.author ∉ out := by
      rw [mem_iff_isSome_getElem?, ha]
      simp
    simp [rotate, hnot]
  | some entry =>
    have hmem : op.author ∈ out := by
      rw [mem_iff_isSome_getElem?, ha]
      rfl
    have hdata : ∀ m : Option ValidMember,
        (m.map (repoint op.author op.subject)).map data = m.map data := by
      intro m
      rw [Option.map_map]
      exact Option.map_congr fun x _ => repoint_data _ _ x
    simp only [rotate, ha, hmem, if_true, ExtTreeMap.getElem?_map, hdata, ExtTreeMap.getElem?_insert,
      getElem?_erase, Std.compare_eq_iff_eq, eq_comm (a := q)]
    split_ifs <;> rfl

variable {t : OpTree} {seats : Members} {hs : List String}

def move (op : MembershipOp) (p : String) : String := if p = op.author then op.subject else p

def carryStep (t : OpTree) (p h : String) : String := if (t.op h).action = .rebind then move (t.op h) p else p

def carried (t : OpTree) (hs : List String) (p : String) : String := hs.foldl (carryStep t) p

lemma carried_concat (hs : List String) (h p : String) : carried t (hs ++ [h]) p = carryStep t (carried t hs p) h := by
  simp [carried]

lemma mem_iff_data {out : Members} {q : String} : q ∈ out ↔ (out[q]?.map data).isSome = true := by
  rw [mem_iff_isSome_getElem?, Option.isSome_map]

lemma mem_rotate (op : MembershipOp) (out : Members) (q : String) : q ∈ rotate op out ↔ ∃ p ∈ out, move op p = q := by
  rw [mem_iff_data, rotate_data]
  by_cases ha : op.author ∈ out
  · split_ifs with hs haq
    · rw [← mem_iff_data]
      exact iff_of_true ha ⟨op.author, ha, by simp [move, hs]⟩
    · refine iff_of_false (by simp) ?_
      rintro ⟨p, _, hp⟩
      rw [move] at hp
      split_ifs at hp with hpa
      · exact hs hp.symm
      · exact hpa (hp.trans haq)
    · rw [← mem_iff_data]
      refine ⟨fun hq => ⟨q, hq, if_neg haq⟩, ?_⟩
      rintro ⟨p, hp, hpq⟩
      rw [move] at hpq
      split_ifs at hpq
      · exact (hs hpq.symm).elim
      · exact hpq ▸ hp
  · rw [if_neg ha, ← mem_iff_data]
    have hmove : ∀ p ∈ out, move op p = p := by
      intro p hp
      rw [move, if_neg]
      rintro rfl
      exact ha hp
    refine ⟨fun hq => ⟨q, hq, hmove q hq⟩, ?_⟩
    rintro ⟨p, hp, hpq⟩
    rw [hmove p hp] at hpq
    exact hpq ▸ hp

lemma mem_foldl_rebindStep (seats : Members) (hs : List String) (q : String) :
    q ∈ hs.foldl (rebindStep t) seats ↔ ∃ p ∈ seats, carried t hs p = q := by
  induction hs using List.reverseRecOn generalizing q with
  | nil => simp [carried]
  | append_singleton hs h ih =>
    simp only [foldl_append, foldl_cons, foldl_nil, carried_concat, rebindStep, carryStep]
    split_ifs with hact
    · rw [mem_rotate]
      constructor
      · rintro ⟨c, hc, rfl⟩
        obtain ⟨p, hp, rfl⟩ := (ih c).mp hc
        exact ⟨p, hp, rfl⟩
      · rintro ⟨p, hp, rfl⟩
        exact ⟨_, (ih _).mpr ⟨p, hp, rfl⟩, rfl⟩
    · exact ih q

structure KeepsSeats (t : OpTree) (seats : Members) (hs : List String) : Prop where
  apart : ∀ p ∈ seats, ∀ p' ∈ seats, carried t hs p = carried t hs p' → p = p'
  data : ∀ p ∈ seats,
    (hs.foldl (rebindStep t) seats)[carried t hs p]?.map ValidMember.data = seats[p]?.map ValidMember.data

def NoClash (t : OpTree) (seats : Members) (hs : List String) : Prop :=
  ∀ pre h post, hs = pre ++ h :: post → (t.op h).action = .rebind → ∀ p ∈ seats, ∀ p' ∈ seats,
    carried t pre p = (t.op h).author → carried t pre p' = (t.op h).subject → p = p'

lemma noClash_iff_getElem (t : OpTree) (seats : Members) (hs : List String) :
    NoClash t seats hs ↔ ∀ i < hs.length, (t.op hs[i]!).action = .rebind → ∀ p ∈ seats.keys, ∀ p' ∈ seats.keys,
      carried t (hs.take i) p = (t.op hs[i]!).author → carried t (hs.take i) p' = (t.op hs[i]!).subject → p = p' := by
  simp only [ExtTreeMap.mem_keys]
  constructor
  · intro hnc i hi
    rw [getElem!_pos hs i hi]
    exact hnc (hs.take i) hs[i] (hs.drop (i + 1)) (by simp)
  · rintro hall pre h post rfl
    have hi := hall pre.length (by simp)
    simpa using hi

instance (t : OpTree) (seats : Members) (hs : List String) : Decidable (NoClash t seats hs) :=
  decidable_of_iff _ (noClash_iff_getElem t seats hs).symm

lemma NoClash.of_concat {h : String} (hnc : NoClash t seats (hs ++ [h])) : NoClash t seats hs := by
  intro pre k post hsplit
  exact hnc pre k (post ++ [h]) (by simp [hsplit])

lemma KeepsSeats.step {h : String} (hk : KeepsSeats t seats hs) (hact : (t.op h).action = .rebind)
    (hfree : ∀ p ∈ seats, ∀ p' ∈ seats,
      carried t hs p = (t.op h).author → carried t hs p' = (t.op h).subject → p = p') :
    KeepsSeats t seats (hs ++ [h]) := by
  refine ⟨fun p hp p' hp' he => ?_, fun p hp => ?_⟩
  · simp only [carried_concat, carryStep, hact, if_true, move] at he
    split_ifs at he with ha ha' ha'
    · exact hk.apart p hp p' hp' (ha.trans ha'.symm)
    · exact hfree p hp p' hp' ha he.symm
    · exact (hfree p' hp' p hp ha' he).symm
    · exact hk.apart p hp p' hp' he
  · have hdata := hk.data p hp
    simp only [carried_concat, carryStep, hact, if_true, move, foldl_append, foldl_cons, foldl_nil,
      rebindStep, rotate_data]
    by_cases ha : carried t hs p = (t.op h).author
    · have hmem := (mem_foldl_rebindStep seats hs _).mpr ⟨p, hp, ha⟩
      rw [if_pos ha, if_pos hmem, if_pos rfl, ← ha, hdata]
    · split_ifs with hmem hs
      · obtain ⟨p0, hp0, ha0⟩ := (mem_foldl_rebindStep seats _ _).mp hmem
        obtain rfl := hfree p0 hp0 p hp ha0 hs
        exact (ha ha0).elim
      · exact hdata
      · exact hdata

lemma keepsSeats_of_noClash (hnc : NoClash t seats hs) : KeepsSeats t seats hs := by
  induction hs using List.reverseRecOn with
  | nil => exact ⟨fun p _ p' _ he => he, fun p _ => rfl⟩
  | append_singleton hs h ih =>
    have hk := ih hnc.of_concat
    by_cases hact : (t.op h).action = .rebind
    · exact hk.step hact (hnc hs h [] rfl hact)
    · have hc : carried t (hs ++ [h]) = carried t hs := funext fun p => by
        rw [carried_concat, carryStep, if_neg hact]
      refine ⟨fun p hp p' hp' he => hk.apart p hp p' hp' (by rwa [hc] at he), fun p hp => ?_⟩
      rw [hc, foldl_append, foldl_cons, rebindStep, if_neg hact]
      exact hk.data p hp

lemma carried_append (pre post : List String) (p : String) :
    carried t (pre ++ post) p = carried t post (carried t pre p) := by
  simp [carried]

lemma keepsSeats_iff : KeepsSeats t seats hs ↔ NoClash t seats hs := by
  refine ⟨fun hk pre h post hsplit hact p hp p' hp' ha hs' => hk.apart p hp p' hp' ?_, keepsSeats_of_noClash⟩
  -- Once both seats are under the name of the successor, the rebinds after it cannot tell them apart.
  have hmove : ∀ x, carried t pre x = (t.op h).author ∨ carried t pre x = (t.op h).subject →
      carried t (pre ++ [h]) x = (t.op h).subject := by
    intro x hx
    rw [carried_concat, carryStep, move]
    split_ifs with hxa
    · rfl
    · exact hx.resolve_left hxa
  have hall : hs = (pre ++ [h]) ++ post := by simp [hsplit]
  rw [hall, carried_append _ post, carried_append _ post, hmove p (Or.inl ha), hmove p' (Or.inr hs')]

def clashingLog : List SignedMembershipOp :=
  [sampleGenesis, sampleLinked 2 1 'o' .admits (sampleFp 'm') (some .viewer),
    sampleLinked 3 2 'o' .admits (sampleFp 's') (some .editor),
    sampleSigned 4 'm' (sampleRebind (sampleHash 2) 'm' 's')]

end Mae.Sync.Membership
