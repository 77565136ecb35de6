import Mae.Sync.Membership.Seats

/-! The entry of a member that an inviter admits once more. -/

namespace Mae.Sync.Membership

open Std

variable {t : OpTree} {now : UInt64} {valid : List String} {x : String}

def lastSeat (t : OpTree) (now : UInt64) (live : List String) (p : String) : Option String :=
  (seatOps t .singleOwner now live p).getLast?

def Redundant (t : OpTree) (now : UInt64) (valid : List String) (x : String) : Prop :=
  lastSeat t now valid (t.op x).subject = some x →
    (lastSeat t now (valid.filter fun h => h ≠ x) (t.op x).subject).map (overlaid t valid) = some (overlaid t valid x)
  deriving Decidable

section

variable (hact : (t.op x).action = .admits)
include hact

lemma seatOps_filter (p : String) : seatOps t .singleOwner now (valid.filter fun h => h ≠ x) p =
      (seatOps t .singleOwner now valid p).filter fun h => h ≠ x := by
  have hseats : ∀ h, Seats t .singleOwner now (valid.filter fun k => k ≠ x) h ↔ Seats t .singleOwner now valid h := by
    intro h
    rw [Seats, dominated_filter, Seats]
    simp [OpTree.Removes, hact, isRemoval]
  simp only [seatOps, hseats, List.filter_filter, Bool.and_comm]

lemma admitPass_filter (p : String) : (admitPass t .singleOwner now (valid.filter fun h => h ≠ x))[p]? =
      (lastSeat t now (valid.filter fun h => h ≠ x) p).map (overlaid t valid) := by
  rw [admitPass_getElem?, lastSeat]
  apply Option.map_congr
  intro k _
  exact overlaid_filter (by simp [hact]) valid k

lemma lastSeat_filter {p : String} (hl : lastSeat t now valid p ≠ some x) :
    lastSeat t now (valid.filter fun h => h ≠ x) p = lastSeat t now valid p := by
  rw [lastSeat, seatOps_filter hact, lastSeat]
  rw [lastSeat] at hl
  cases hs : (seatOps t .singleOwner now valid p).reverse with
  | nil => rw [List.reverse_eq_nil_iff.mp hs, List.filter_nil]
  | cons a l =>
    have hsplit : seatOps t .singleOwner now valid p = l.reverse ++ [a] := by
      rw [← List.reverse_reverse (seatOps t .singleOwner now valid p), hs, List.reverse_cons]
    have hne : a ≠ x := by
      rintro rfl
      exact hl (by simp [hsplit])
    simp [hsplit, List.filter_append, hne]

lemma admitPass_filter_of_ne {p : String} (hl : lastSeat t now valid p ≠ some x) :
    (admitPass t .singleOwner now (valid.filter fun h => h ≠ x))[p]? = (admitPass t .singleOwner now valid)[p]? := by
  rw [admitPass_filter hact, lastSeat_filter hact hl, admitPass_getElem?, lastSeat]

lemma admitPass_filter_iff : (admitPass t .singleOwner now (valid.filter fun h => h ≠ x))[(t.op x).subject]? =
      (admitPass t .singleOwner now valid)[(t.op x).subject]? ↔ Redundant t now valid x := by
  by_cases hl : lastSeat t now valid (t.op x).subject = some x
  · have hself : (admitPass t .singleOwner now valid)[(t.op x).subject]? = some (overlaid t valid x) := by
      rw [admitPass_getElem?, ← lastSeat, hl, Option.map_some]
    rw [admitPass_filter hact, hself, Redundant, imp_iff_right hl]
  · exact iff_of_true (admitPass_filter_of_ne hact hl) fun hc => (hl hc).elim

lemma admitPass_of_redundant (hred : Redundant t now valid x) :
    admitPass t .singleOwner now (valid.filter fun h => h ≠ x) = admitPass t .singleOwner now valid := by
  apply ExtTreeMap.ext_getElem?
  intro p
  by_cases hp : (t.op x).subject = p
  · subst hp
    exact (admitPass_filter_iff hact).mpr hred
  · exact admitPass_filter_of_ne hact fun hl => hp (getLast?_seatOps hl).2.1

lemma buildMembers_of_redundant (hred : Redundant t now valid x) :
    buildMembers t .singleOwner now (valid.filter fun h => h ≠ x) = buildMembers t .singleOwner now valid := by
  rw [buildMembers, admitPass_of_redundant hact hred]
  exact foldl_filter_of_fixed _ (fun _ => if_neg (by simp [hact])) valid _

end

def demotedOwnerLog : List SignedMembershipOp :=
  [sampleGenesis,
    sampleSigned 2 'o' { sampleOp (sampleHash 1) 'o' .admits (sampleFp 'i') (some .editor) with canInvite := true },
    sampleLinked 3 2 'i' .admits (sampleFp 'o') (some .viewer)]

def restoredLog : List SignedMembershipOp :=
  demotedOwnerLog.take 2 ++ [sampleLinked 3 2 'o' .admits (sampleFp 'b') (some .editor),
    sampleLinked 4 3 'i' .admits (sampleFp 'b') (some .viewer),
    sampleLinked 5 4 'o' .admits (sampleFp 'b') (some .editor)]

end Mae.Sync.Membership
