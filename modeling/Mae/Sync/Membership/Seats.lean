import Mae.Sync.Membership.ValidityLoop

/-! Which op seats a principal, and what the ops that name a principal make of its seat. -/

namespace Mae.Sync.Membership

open Std List

variable {t : OpTree} {governance : Governance} {now : UInt64}

lemma foldl_of_fixed {α β : Type*} {f : β → α → β} {l : List α} (hfix : ∀ a ∈ l, ∀ b, f b a = b) (b : β) :
    l.foldl f b = b := by
  induction l with
  | nil => rfl
  | cons a l ih => rw [foldl_cons, hfix a mem_cons_self, ih fun k hk => hfix k (mem_cons_of_mem a hk)]

def seatOps (t : OpTree) (governance : Governance) (now : UInt64) (live : List String) (p : String) : List String :=
  live.filter fun h => (t.op h).subject = p ∧ Seats t governance now live h

lemma foldl_admitStep_getElem? (live l : List String) (p : String) : (l.foldl (admitStep t governance now live) ∅)[p]? =
      (l.filter fun h => (t.op h).subject = p ∧ Seats t governance now live h).getLast?.map (overlaid t live) := by
  induction l using List.reverseRecOn with
  | nil => simp
  | append_singleton l h ih =>
    rw [foldl_append, foldl_cons, foldl_nil, admitStep]
    by_cases hs : Seats t governance now live h
    · rw [if_pos hs, ExtTreeMap.getElem?_insert]
      by_cases hp : (t.op h).subject = p
      · simp [hp, hs]
      · simp [hp, ih]
    · simp [hs, ih]

lemma admitPass_getElem? (live : List String) (p : String) : (admitPass t governance now live)[p]? =
      (seatOps t governance now live p).getLast?.map (overlaid t live) :=
  foldl_admitStep_getElem? live live p

lemma overlaid_concat (l : List String) (h k : String) :
    overlaid t (l ++ [h]) k = overlayStep t k (overlaid t l k) h := by
  simp [overlaid]

lemma effectiveRemoval_singleOwner (target : String) (live : List String) :
    effectiveRemoval t target .singleOwner live = live.find? fun h => t.Removes target h := by
  rw [effectiveRemoval]
  induction live with
  | nil => rfl
  | cons h rest ih =>
    by_cases hr : t.Removes target h
    · simp [removalScan, hr, Governance.needed]
    · simp [removalScan, hr, ih]

lemma buildMembers_of_no_rebind {live : List String} (hno : ∀ h ∈ live, (t.op h).action ≠ .rebind) :
    buildMembers t governance now live = admitPass t governance now live :=
  foldl_of_fixed (fun h hh _ => if_neg (hno h hh)) _

section Filter

variable {x : String}

lemma foldl_filter_of_fixed {β : Type*} (f : β → String → β) (hfix : ∀ b, f b x = b) (l : List String) (b : β) :
    (l.filter fun h => h ≠ x).foldl f b = l.foldl f b := by
  rw [foldl_filter]
  apply foldl_ext
  intro b h _
  by_cases hh : h = x
  · simp [hh, hfix]
  · simp [hh]

lemma dominated_filter {live : List String} {h : String} (hr : ¬ t.Removes (t.op h).subject x) :
    dominated t .singleOwner (live.filter fun k => k ≠ x) h = dominated t .singleOwner live h := by
  have hfind : (live.filter fun k => k ≠ x).find? (fun k => t.Removes (t.op h).subject k) =
      live.find? fun k => t.Removes (t.op h).subject k := by
    rw [find?_filter]
    congr 1
    funext k
    by_cases hk : k = x
    · simp [hk, hr]
    · simp [hk]
  rw [dominated, dominated, effectiveRemoval_singleOwner, effectiveRemoval_singleOwner, hfind]

lemma overlayStep_of_ne {k h : String} {entry : ValidMember}
    (hne : ¬ ((t.op h).action = .setRole ∧ (t.op h).subject = (t.op k).subject)) :
    overlayStep t k entry h = entry := by
  rw [overlayStep, if_neg]
  exact fun hc => hne ⟨hc.1, hc.2.1⟩

lemma overlaid_filter (hr : (t.op x).action ≠ .setRole) (live : List String) (h : String) :
    overlaid t (live.filter fun k => k ≠ x) h = overlaid t live h := by
  apply foldl_filter_of_fixed
  intro entry
  apply overlayStep_of_ne
  exact fun hc => hr hc.1

end Filter

structure Seat where
  removed : Bool
  entry : Option ValidMember

def Seat.step (op : MembershipOp) (isGenesis : Bool) (s : Seat) : Seat :=
  match op.action with
  | .admits => ⟨s.removed, some (admitEntry op isGenesis)⟩
  | .setRole => ⟨s.removed, s.entry.map fun entry => overlayRole entry op⟩
  -- Only the first removal of a principal counts: `effective_removal` returns it for ever after.
  | .remove | .revoke => if s.removed then s else ⟨true, none⟩
  | _ => s

def seatStep (t : OpTree) (p : String) (s : Seat) (h : String) : Seat :=
  if (t.op h).subject = p then s.step (t.op h) (h == t.genesisHash) else s

def seat (t : OpTree) (hs : List String) (p : String) : Seat := hs.foldl (seatStep t p) ⟨false, none⟩

lemma seat_concat (hs : List String) (h p : String) : seat t (hs ++ [h]) p = seatStep t p (seat t hs p) h := by
  simp [seat]

lemma Seat.step_removed (op : MembershipOp) (isGenesis : Bool) (s : Seat) :
    (s.step op isGenesis).removed = (s.removed || isRemoval op.action) := by
  cases hs : s.removed <;> cases ha : op.action <;> simp [Seat.step, ha, hs, isRemoval]

lemma seat_removed (hs : List String) (p : String) : (seat t hs p).removed = hs.any fun h => t.Removes p h := by
  induction hs using List.reverseRecOn with
  | nil => rfl
  | append_singleton hs h ih =>
    rw [seat_concat, seatStep, any_append, ← ih]
    by_cases hp : (t.op h).subject = p
    · simp [hp, Seat.step_removed, OpTree.Removes]
    · simp [hp, OpTree.Removes]

structure InSequence (t : OpTree) (hs : List String) : Prop where
  ordered : hs.Pairwise fun a b => a ∈ t.past b ∧ b ∉ t.past a
  strict : ∀ a ∈ hs, a ∉ t.past a

variable {hs : List String}

lemma InSequence.sublist {hs' : List String} (hq : InSequence t hs') (hsub : hs.Sublist hs') : InSequence t hs where
  ordered := hq.ordered.sublist hsub
  strict a ha := hq.strict a (hsub.subset ha)

lemma InSequence.of_concat {h : String} (hq : InSequence t (hs ++ [h])) : InSequence t hs :=
  hq.sublist (sublist_append_left _ _)

lemma InSequence.before {h k : String} (hq : InSequence t (hs ++ [h])) (hk : k ∈ hs) : k ∈ t.past h ∧ h ∉ t.past k :=
  (pairwise_append.mp hq.ordered).2.2 k hk h (mem_singleton_self h)

section Concat

variable {hs : List String} {h p : String}

section

variable (hf : (hs ++ [h]).find? (fun k => t.Removes p k) = hs.find? fun k => t.Removes p k)
include hf

lemma seats_concat {k : String} (hk : (t.op k).subject = p) :
    Seats t .singleOwner now (hs ++ [h]) k ↔ Seats t .singleOwner now hs k := by
  rw [Seats, Seats, dominated, dominated, hk, effectiveRemoval_singleOwner, effectiveRemoval_singleOwner, hf]

lemma admitPass_concat :
    (admitPass t .singleOwner now (hs ++ [h]))[p]? = if (t.op h).subject = p ∧ Seats t .singleOwner now (hs ++ [h]) h
      then some (overlaid t (hs ++ [h]) h) else (seatOps t .singleOwner now hs p).getLast?.map fun k => overlayStep t k
      (overlaid t hs k) h := by
  have hkeep : (hs.filter fun k => (t.op k).subject = p ∧ Seats t .singleOwner now (hs ++ [h]) k) =
      seatOps t .singleOwner now hs p := by
    apply filter_congr
    intro k _
    by_cases hk : (t.op k).subject = p
    · simp only [hk, true_and, seats_concat hf hk]
    · simp [hk]
  have hoverlaid : overlaid t (hs ++ [h]) = fun k => overlayStep t k (overlaid t hs k) h :=
    funext fun k => overlaid_concat hs h k
  rw [admitPass_getElem?, seatOps, filter_append, hkeep]
  by_cases hh : (t.op h).subject = p ∧ Seats t .singleOwner now (hs ++ [h]) h
  · simp [hh]
  · simp [hh, hoverlaid]

end

lemma getLast?_seatOps {k : String} (hk : (seatOps t governance now hs p).getLast? = some k) :
    k ∈ hs ∧ (t.op k).subject = p ∧ Seats t governance now hs k := by
  have hmem := mem_of_getLast? hk
  simpa [seatOps] using hmem

lemma admitPass_concat_of_inert (hf : (hs ++ [h]).find? (fun k => t.Removes p k) = hs.find? fun k => t.Removes p k)
    (hseat : ¬ ((t.op h).subject = p ∧ Seats t .singleOwner now (hs ++ [h]) h))
    (hrole : ¬ ((t.op h).action = .setRole ∧ (t.op h).subject = p)) :
    (admitPass t .singleOwner now (hs ++ [h]))[p]? = (admitPass t .singleOwner now hs)[p]? := by
  rw [admitPass_concat hf, if_neg hseat, admitPass_getElem?]
  apply Option.map_congr
  intro k hk
  apply overlayStep_of_ne
  rw [(getLast?_seatOps hk).2.1]
  exact hrole

variable (hq : InSequence t (hs ++ [h]))
include hq

lemma admitPass_concat_of_first (hr : t.Removes p h) (hseat : ¬ Seats t .singleOwner now (hs ++ [h]) h)
    (hfirst : ∀ k ∈ hs, ¬ t.Removes p k) :
    (admitPass t .singleOwner now (hs ++ [h]))[p]? = none := by
  have hfind : (hs ++ [h]).find? (fun k => t.Removes p k) = some h := by
    have hnone : hs.find? (fun k => t.Removes p k) = none := by simpa using hfirst
    simp [find?_append, hnone, hr]
  have hnil : seatOps t .singleOwner now (hs ++ [h]) p = [] := by
    rw [seatOps, filter_eq_nil_iff]
    intro k hk hc
    obtain ⟨hsub, hseats⟩ := of_decide_eq_true hc
    rw [mem_append, mem_singleton] at hk
    rcases hk with hk | rfl
    · have hdom := hseats.2.1
      rw [dominated, hsub, effectiveRemoval_singleOwner, hfind] at hdom
      simp [(hq.before hk).2] at hdom
    · exact hseat hseats
  rw [admitPass_getElem?, hnil]
  rfl

lemma seats_of_admits (hact : (t.op h).action = .admits) (hexp : expired (t.op h) now = false) :
    Seats t .singleOwner now (hs ++ [h]) h := by
  refine ⟨Or.inr hact, ?_, hexp⟩
  rw [dominated, effectiveRemoval_singleOwner]
  cases hf : (hs ++ [h]).find? fun k => t.Removes (t.op h).subject k with
  | none => rfl
  | some r =>
    have hrem : t.Removes (t.op h).subject r := by simpa using find?_some hf
    have hmem := mem_of_find?_eq_some hf
    rw [mem_append, mem_singleton] at hmem
    rcases hmem with hmem | rfl
    · simp [(hq.before hmem).1]
    · simp [OpTree.Removes, hact, isRemoval] at hrem

lemma overlaid_of_last : overlaid t (hs ++ [h]) h = admitEntry (t.op h) (h == t.genesisHash) := by
  refine foldl_of_fixed (fun k hk _ => if_neg fun hc => ?_) _
  rw [mem_append, mem_singleton] at hk
  rcases hk with hk | rfl
  · exact (hq.before hk).2 hc.2.2
  · exact hq.strict k (by simp) hc.2.2

lemma admitPass_concat_setRole (hact : (t.op h).action = .setRole) (hseat : ¬ Seats t .singleOwner now (hs ++ [h]) h)
    (hp : (t.op h).subject = p) :
    (admitPass t .singleOwner now (hs ++ [h]))[p]? = (admitPass t .singleOwner now hs)[p]?.map fun entry => overlayRole
      entry (t.op h) := by
  have hf : (hs ++ [h]).find? (fun k => t.Removes p k) = hs.find? fun k => t.Removes p k := by
    simp [find?_append, OpTree.Removes, hact, isRemoval]
  rw [admitPass_concat hf, if_neg (fun hc => hseat hc.2), admitPass_getElem?, Option.map_map]
  apply Option.map_congr
  intro k hk
  obtain ⟨hmem, hsub, _⟩ := getLast?_seatOps hk
  exact if_pos ⟨hact, hp.trans hsub.symm, (hq.before hmem).1⟩

lemma admitPass_concat_removal (hr : t.Removes p h) (hseat : ¬ Seats t .singleOwner now (hs ++ [h]) h) :
    (admitPass t .singleOwner now (hs ++ [h]))[p]? = if (seat t hs p).removed then (admitPass t .singleOwner now hs)[p]?
      else none := by
  rw [seat_removed]
  by_cases hany : hs.any fun k => t.Removes p k
  · rw [if_pos hany]
    apply admitPass_concat_of_inert
    · obtain ⟨r, hrmem, hrr⟩ := any_eq_true.mp hany
      have hsome : (hs.find? fun k => t.Removes p k).isSome = true := find?_isSome.mpr ⟨r, hrmem, hrr⟩
      rw [find?_append, Option.or_of_isSome hsome]
    · exact fun hc => hseat hc.2
    · intro hc
      have hrem := hr.1
      simp [hc.1, isRemoval] at hrem
  · rw [if_neg hany]
    apply admitPass_concat_of_first hq hr hseat
    simpa using hany

end Concat

lemma admitPass_eq_seat (hroot : (t.op t.genesisHash).action = .admits) (hq : InSequence t hs)
    (hexp : ∀ h ∈ hs, expired (t.op h) now = false) (p : String) :
    (admitPass t .singleOwner now hs)[p]? = (seat t hs p).entry := by
  induction hs using List.reverseRecOn with
  | nil => simp [admitPass, seat]
  | append_singleton hs h ih =>
    have ih := ih hq.of_concat fun k hk => hexp k (mem_append_left _ hk)
    have hadmits : Seats t .singleOwner now (hs ++ [h]) h → (t.op h).action = .admits :=
      fun hseat => hseat.1.elim (fun heq => heq ▸ hroot) id
    have hinert : ¬ ((t.op h).subject = p ∧ isRemoval (t.op h).action = true) →
        ¬ ((t.op h).subject = p ∧ (t.op h).action = .admits) →
        ¬ ((t.op h).subject = p ∧ (t.op h).action = .setRole) →
        (admitPass t .singleOwner now (hs ++ [h]))[p]? = (admitPass t .singleOwner now hs)[p]? := by
      intro hrem hadm hrole
      apply admitPass_concat_of_inert
      · simp [find?_append, OpTree.Removes, and_comm, hrem]
      · exact fun hc => hadm ⟨hc.1, hadmits hc.2⟩
      · exact fun hc => hrole hc.symm
    rw [seat_concat, seatStep]
    by_cases hp : (t.op h).subject = p
    · rw [if_pos hp]
      -- One case per action: what the op does to the seat is what the pass makes of it.
      cases hact : (t.op h).action with
      | admits =>
        have hf : (hs ++ [h]).find? (fun k => t.Removes p k) = hs.find? fun k => t.Removes p k := by
          simp [find?_append, OpTree.Removes, hact, isRemoval]
        have hseat := seats_of_admits hq hact (hexp h (by simp))
        rw [admitPass_concat hf, if_pos ⟨hp, hseat⟩, overlaid_of_last hq]
        simp [Seat.step, hact]
      | setRole =>
        have hseat : ¬ Seats t .singleOwner now (hs ++ [h]) h := fun hc => by simp [hadmits hc] at hact
        rw [admitPass_concat_setRole hq hact hseat hp, ih]
        simp [Seat.step, hact]
      | remove | revoke =>
        have hseat : ¬ Seats t .singleOwner now (hs ++ [h]) h := fun hc => by simp [hadmits hc] at hact
        have hr : t.Removes p h := ⟨by simp [hact, isRemoval], hp⟩
        rw [admitPass_concat_removal hq hr hseat, ih]
        cases hrm : (seat t hs p).removed <;> simp [Seat.step, hact, hrm]
      | setGovernance | setEncryption | rebind | registerRecoveryKey | rebirth =>
        rw [hinert (by simp [hact, isRemoval]) (by simp [hact]) (by simp [hact]), ih]
        simp [Seat.step, hact]
    · rw [if_neg hp, ← ih]
      exact hinert (by simp [hp]) (by simp [hp]) (by simp [hp])

end Mae.Sync.Membership
