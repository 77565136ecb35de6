import Mae.Library.Champion
import Mae.Library.Framing

/-! Advisory leases of a collection: claims, the lease in force and the generation fence in front of a commit. -/

namespace Mae.Sync.Lease

open Std (ExtTreeMap)
open Library.Champion Library.Framing Std.ExtTreeMap List Option

structure LeaseClaim where
  opKind : String
  holderFp : String
  claimedAt : ℕ
  leaseTtlSecs : ℕ
  generation : ℕ
  deriving DecidableEq, Repr

def saturatingAdd (a b : ℕ) : ℕ := min (a + b) (2 ^ 64 - 1)

namespace LeaseClaim

def expiry (c : LeaseClaim) : ℕ := saturatingAdd c.claimedAt c.leaseTtlSecs

def isExpired (c : LeaseClaim) (now : ℕ) : Bool := decide (c.expiry ≤ now)

/-- The order in which `current_lease` prefers one unexpired claim to another. -/
def outranks (c d : LeaseClaim) : Bool :=
  decide (d.generation < c.generation ∨ c.generation = d.generation ∧ d.holderFp < c.holderFp)

end LeaseClaim

abbrev Leases := ExtTreeMap String LeaseClaim

def claimsFor (leases : Leases) (opKind : String) : List LeaseClaim :=
  (leases.toList.map Prod.snd).filter fun c => c.opKind == opKind

structure Scan where
  maxGeneration : ℕ := 0
  blockingHolder : Option String := none
  isRenewal : Bool := false

def Scan.visit (holderFp : String) (now : ℕ) (s : Scan) (c : LeaseClaim) : Scan :=
  let unexpired := !c.isExpired now
  { maxGeneration := max s.maxGeneration c.generation
    isRenewal := s.isRenewal || unexpired && c.holderFp == holderFp
    blockingHolder :=
      if unexpired && c.holderFp != holderFp && s.blockingHolder.all (· < c.holderFp) then some c.holderFp
      else s.blockingHolder }

def Scan.finalGeneration (s : Scan) : ℕ :=
  if s.isRenewal ∨ s.maxGeneration = 0 then max s.maxGeneration 1 else s.maxGeneration + 1

def scan (leases : Leases) (opKind holderFp : String) (now : ℕ) : Scan :=
  (claimsFor leases opKind).foldl (Scan.visit holderFp now) {}

def claimKey (opKind holderFp : String) (now : ℕ) : String := opKind ++ ":" ++ holderFp ++ "@" ++ toString now

def claimLease (leases : Leases) (opKind holderFp : String) (ttlSecs now : ℕ) : Leases × Option LeaseClaim :=
  let s := scan leases opKind holderFp now
  if s.blockingHolder.any (holderFp < ·) then (leases, none)
  else
    let claim := ⟨opKind, holderFp, now, ttlSecs, s.finalGeneration⟩
    (leases.insert (claimKey opKind holderFp now) claim, some claim)

open LeaseClaim

def currentLease (leases : Leases) (opKind : String) (now : ℕ) : Option LeaseClaim :=
  best outranks ((claimsFor leases opKind).filter fun c => !c.isExpired now)

def claimLeaseAndReport (leases : Leases) (opKind holderFp : String) (ttlSecs now : ℕ) :
    Leases × Except String LeaseClaim :=
  let claimed := (claimLease leases opKind holderFp ttlSecs now).1
  (claimed, match currentLease claimed opKind now with
    | some lease => .ok lease
    | none => .error "lease claim produced no current holder")

def enforceLeaseGenerationFence (leases : Leases) (opKind myHolderFp : String) (myGeneration now : ℕ) :
    Except String Unit :=
  match currentLease leases opKind now with
  | some lease =>
    if lease.holderFp = myHolderFp ∧ lease.generation = myGeneration then .ok ()
    else .error ("lease for '" ++ opKind ++ "' has moved on: now generation " ++ toString lease.generation ++
      " held by " ++ lease.holderFp ++ " (this batch was authored under generation " ++ toString myGeneration ++
      " as " ++ myHolderFp ++ "); discard, do not commit")
  | none => .error ("lease for '" ++ opKind ++ "' expired with no current holder; discard, do not commit")

structure Call where
  holderFp : String
  ttlSecs : ℕ
  now : ℕ
  deriving DecidableEq, Repr

def Call.expiry (c : Call) : ℕ := saturatingAdd c.now c.ttlSecs

/-- The state of a sequence of calls: the lease map, and the claims granted so far in order. -/
structure Ledger where
  leases : Leases
  granted : List LeaseClaim

def Ledger.call (opKind : String) (s : Ledger) (c : Call) : Ledger :=
  let r := claimLease s.leases opKind c.holderFp c.ttlSecs c.now
  ⟨r.1, s.granted ++ r.2.toList⟩

def Ledger.run (opKind : String) (leases : Leases) (calls : List Call) : Ledger :=
  calls.foldl (Ledger.call opKind) ⟨leases, []⟩

@[simp] lemma Ledger.run_nil (opKind : String) (leases : Leases) : Ledger.run opKind leases [] = ⟨leases, []⟩ := rfl

lemma Ledger.run_concat (opKind : String) (leases : Leases) (calls : List Call) (c : Call) :
    Ledger.run opKind leases (calls ++ [c]) = (Ledger.run opKind leases calls).call opKind c := by
  simp [Ledger.run]

variable {leases : Leases} {opKind holderFp : String} {ttlSecs now : ℕ} {c e : LeaseClaim}

lemma mem_claimsFor : c ∈ claimsFor leases opKind ↔ c.opKind = opKind ∧ ∃ k : String, leases[k]? = some c := by
  simp only [claimsFor, List.mem_filter, List.mem_map, Prod.exists, exists_eq_right, beq_iff_eq,
    mem_toList_iff_getElem?_eq_some]
  exact and_comm

lemma claimKey_holder_inj {h h' : String} {n n' : ℕ} (hk : claimKey opKind h n = claimKey opKind h' n') : h = h' := by
  have hdigits : ∀ m : ℕ, '@' ∉ (toString m).toList.reverse := by
    intro m hm
    rw [mem_reverse, Nat.toString_eq_repr, Nat.toList_repr] at hm
    exact absurd (Nat.isDigit_of_mem_toDigits (by decide) (by decide) hm) (by decide)
  -- a decimal number has no '@', so read from the right the key splits at its last one
  have hrev := congrArg (fun s => s.toList.reverse) hk
  simp only [claimKey, String.toList_append, reverse_append, append_assoc] at hrev
  have hrest := (append_terminator_inj (hdigits n) (hdigits n') hrev).2
  exact String.toList_injective (reverse_injective (append_cancel_right hrest))

lemma Scan.maxGeneration_foldl (s : Scan) (l : List LeaseClaim) :
    s.maxGeneration ≤ (l.foldl (Scan.visit holderFp now) s).maxGeneration ∧
      ∀ c ∈ l, c.generation ≤ (l.foldl (Scan.visit holderFp now) s).maxGeneration := by
  induction l generalizing s with
  | nil => simp
  | cons d l ih =>
    obtain ⟨hs, hl⟩ := ih (s.visit holderFp now d)
    have hvisit : (s.visit holderFp now d).maxGeneration = max s.maxGeneration d.generation := rfl
    rw [hvisit, Nat.max_le] at hs
    exact ⟨hs.1, forall_mem_cons.mpr ⟨hs.2, hl⟩⟩

lemma Scan.isRenewal_or_lt (s : Scan) : s.maxGeneration ≤ s.finalGeneration ∧
    (s.isRenewal = false → s.maxGeneration < s.finalGeneration) := by
  rw [Scan.finalGeneration]
  split_ifs with h
  · refine ⟨le_max_left _ _, fun hr => ?_⟩
    rw [hr] at h
    simp only [Bool.false_eq_true, false_or] at h
    simp [h]
  · exact ⟨Nat.le_succ _, fun _ => Nat.lt_succ_self _⟩

lemma claimLease_cases (leases : Leases) (opKind holderFp : String) (ttlSecs now : ℕ) :
    claimLease leases opKind holderFp ttlSecs now = (leases, none) ∨
      ∃ c : LeaseClaim, c.opKind = opKind ∧ c.holderFp = holderFp ∧ c.expiry = saturatingAdd now ttlSecs ∧
        (∀ e ∈ claimsFor leases opKind, e.generation ≤ c.generation) ∧
        claimLease leases opKind holderFp ttlSecs now =
          (leases.insert (claimKey opKind holderFp now) c, some c) := by
  rw [claimLease]
  split_ifs
  · exact Or.inl rfl
  · refine Or.inr ⟨_, rfl, rfl, rfl, fun e he => ?_, rfl⟩
    exact ((Scan.maxGeneration_foldl {} _).2 e he).trans (Scan.isRenewal_or_lt _).1

def Keyed (opKind : String) (leases : Leases) : Prop :=
  ∀ (k : String) (e : LeaseClaim), leases[k]? = some e → e.opKind = opKind → ∃ n, k = claimKey opKind e.holderFp n

lemma mem_claimsFor_insert {k : String} (he : e ∈ claimsFor (leases.insert k c) opKind) :
    e = c ∨ e ∈ claimsFor leases opKind := by
  obtain ⟨hop, k', hk'⟩ := mem_claimsFor.mp he
  rw [ExtTreeMap.getElem?_insert] at hk'
  split_ifs at hk' with h
  · exact Or.inl (some.inj hk').symm
  · exact Or.inr (mem_claimsFor.mpr ⟨hop, k', hk'⟩)

lemma self_mem_claimsFor_insert (leases : Leases) (k : String) (hc : c.opKind = opKind) :
    c ∈ claimsFor (leases.insert k c) opKind :=
  mem_claimsFor.mpr ⟨hc, k, by simp⟩

lemma Keyed.mem_claimsFor_insert_or (hk : Keyed opKind leases) (he : e ∈ claimsFor leases opKind) :
    e ∈ claimsFor (leases.insert (claimKey opKind c.holderFp now) c) opKind ∨ e.holderFp = c.holderFp := by
  obtain ⟨hop, k, hek⟩ := mem_claimsFor.mp he
  obtain ⟨n, rfl⟩ := hk k e hek hop
  by_cases hkey : claimKey opKind c.holderFp now = claimKey opKind e.holderFp n
  · exact Or.inr (claimKey_holder_inj hkey).symm
  · refine Or.inl (mem_claimsFor.mpr ⟨hop, claimKey opKind e.holderFp n, ?_⟩)
    rw [ExtTreeMap.getElem?_insert, if_neg (by simpa using hkey), hek]

lemma Keyed.insert (hk : Keyed opKind leases) (c : LeaseClaim) (now : ℕ) :
    Keyed opKind (leases.insert (claimKey opKind c.holderFp now) c) := by
  intro k e hek hop
  rw [ExtTreeMap.getElem?_insert] at hek
  split_ifs at hek with h
  · cases hek
    exact ⟨now, (Std.compare_eq_iff_eq.mp h).symm⟩
  · exact hk k e hek hop

structure Traced (opKind : String) (calls : List Call) (s : Ledger) : Prop where
  keyed : Keyed opKind s.leases
  called : ∀ e ∈ claimsFor s.leases opKind, ∃ c ∈ calls, c.holderFp = e.holderFp ∧ c.expiry = e.expiry
  reached : ∀ d ∈ s.granted, ∃ e ∈ claimsFor s.leases opKind, d.generation ≤ e.generation

def ExpireInOrder (calls : List Call) : Prop :=
  calls.Pairwise fun c d => c.holderFp ≠ d.holderFp → c.expiry ≤ d.expiry
  deriving Decidable

def Outlasted (opKind : String) (s : Ledger) : Prop :=
  ∀ e ∈ claimsFor s.leases opKind, ∀ d ∈ s.granted, d.holderFp ≠ e.holderFp → e.generation < d.generation →
    ∃ e' ∈ claimsFor s.leases opKind, e'.holderFp = d.holderFp ∧ d.generation ≤ e'.generation ∧ e.expiry ≤ e'.expiry

variable {calls : List Call}

lemma Traced.call {s : Ledger} (hs : Traced opKind calls s) (c : Call) :
    Traced opKind (calls ++ [c]) (s.call opKind c) := by
  have hearlier : ∀ e ∈ claimsFor s.leases opKind, ∃ b ∈ calls ++ [c], b.holderFp = e.holderFp ∧ b.expiry = e.expiry := by
    intro e he
    obtain ⟨b, hb, hbe⟩ := hs.called e he
    exact ⟨b, mem_append_left _ hb, hbe⟩
  rcases claimLease_cases s.leases opKind c.holderFp c.ttlSecs c.now with hr | ⟨n, hop, hh, hexp, hgen, hr⟩
  · simp only [Ledger.call, hr, toList_none, append_nil]
    exact ⟨hs.keyed, hearlier, hs.reached⟩
  · simp only [Ledger.call, hr, toList_some]
    rw [← hh]
    refine ⟨hs.keyed.insert n c.now, fun e he => ?_, fun d hd => ?_⟩
    · rcases mem_claimsFor_insert he with rfl | he
      · exact ⟨c, by simp, hh.symm, hexp.symm⟩
      · exact hearlier e he
    · refine ⟨n, self_mem_claimsFor_insert _ _ hop, ?_⟩
      rcases mem_append.mp hd with hd | hd
      · obtain ⟨e, he, hde⟩ := hs.reached d hd
        exact hde.trans (hgen e he)
      · rw [mem_singleton.mp hd]

lemma Traced.outlasted_call {s : Ledger} (hs : Traced opKind calls s) (ho : Outlasted opKind s)
    {c : Call} (hc : ∀ b ∈ calls, b.holderFp ≠ c.holderFp → b.expiry ≤ c.expiry) :
    Outlasted opKind (s.call opKind c) := by
  rcases claimLease_cases s.leases opKind c.holderFp c.ttlSecs c.now with hr | ⟨n, hop, hh, hexp, hgen, hr⟩
  · simpa only [Ledger.call, hr, toList_none, append_nil] using ho
  simp only [Ledger.call, hr, toList_some]
  rw [← hh] at hc ⊢
  have hlasts : ∀ e ∈ claimsFor s.leases opKind, n.holderFp ≠ e.holderFp → e.expiry ≤ n.expiry := by
    intro e he hne
    obtain ⟨b, hb, hbh, hbe⟩ := hs.called e he
    rw [← hbe, hexp]
    exact hc b hb (hbh ▸ hne.symm)
  have hself := self_mem_claimsFor_insert s.leases (claimKey opKind n.holderFp c.now) hop
  intro e he d hd hne hlt
  rcases mem_claimsFor_insert he with rfl | he
  · -- no granted generation exceeds the new claim's
    rcases mem_append.mp hd with hd | hd
    · obtain ⟨e', he', hde'⟩ := hs.reached d hd
      exact absurd (hde'.trans (hgen e' he')) (not_le.mpr hlt)
    · exact absurd hlt (by simp [mem_singleton.mp hd])
  · rcases mem_append.mp hd with hd | hd
    · obtain ⟨e', he', hh', hg', hx'⟩ := ho e he d hd hne hlt
      rcases hs.keyed.mem_claimsFor_insert_or he' with hkept | hover
      · exact ⟨e', hkept, hh', hg', hx'⟩
      · -- the holder claimed again in the same second and overwrote its entry
        have hnd : n.holderFp = d.holderFp := hover.symm.trans hh'
        exact ⟨n, hself, hnd, hg'.trans (hgen e' he'), hlasts e he (hnd ▸ hne)⟩
    · rw [mem_singleton.mp hd] at hne ⊢
      exact ⟨n, hself, rfl, le_rfl, hlasts e he hne⟩

lemma run_outlasted (hnew : claimsFor leases opKind = []) (hord : ExpireInOrder calls) :
    Traced opKind calls (Ledger.run opKind leases calls) ∧ Outlasted opKind (Ledger.run opKind leases calls) := by
  induction calls using List.reverseRecOn with
  | nil =>
    have hkeyed : Keyed opKind leases := by
      intro k e hek hop
      have he := mem_claimsFor.mpr ⟨hop, k, hek⟩
      simp [hnew] at he
    exact ⟨⟨hkeyed, by simp [hnew], by simp⟩, by simp [Outlasted]⟩
  | append_singleton calls c ih =>
    obtain ⟨hcalls, -, hlast⟩ := pairwise_append.mp hord
    obtain ⟨htr, hout⟩ := ih hcalls
    rw [Ledger.run_concat]
    exact ⟨htr.call c, htr.outlasted_call hout fun b hb => hlast b hb c (mem_singleton_self c)⟩

lemma outranks_isContest : IsContest outranks := by
  refine isContest_of_key (fun c => toLex (c.generation, c.holderFp)) fun a b => ?_
  simp [outranks, Prod.Lex.toLex_lt_toLex, @eq_comm _ a.generation]

lemma currentLease_spec (hc : currentLease leases opKind now = some c) :
    c ∈ claimsFor leases opKind ∧ c.isExpired now = false ∧
      ∀ e ∈ claimsFor leases opKind, e.isExpired now = false → e.outranks c = false := by
  obtain ⟨hmem, hlive⟩ := List.mem_filter.mp (best_mem hc)
  refine ⟨hmem, by simpa using hlive, fun e he hexp => ?_⟩
  exact best_unbeaten outranks_isContest hc e (List.mem_filter.mpr ⟨he, by simp [hexp]⟩)

lemma fence_ok_iff {myHolderFp : String} {myGeneration : ℕ} :
    enforceLeaseGenerationFence leases opKind myHolderFp myGeneration now = .ok () ↔
      ∃ c, currentLease leases opKind now = some c ∧ c.holderFp = myHolderFp ∧ c.generation = myGeneration := by
  rw [enforceLeaseGenerationFence]
  cases currentLease leases opKind now with
  | none => simp
  | some c => by_cases h : c.holderFp = myHolderFp ∧ c.generation = myGeneration <;> simp [h]

theorem fence_rejects_stale_batch (opKind : String) (leases : Leases) (hnew : claimsFor leases opKind = [])
    (calls : List Call) (hord : ExpireInOrder calls) (t : ℕ) (holderFp : String) (generation : ℕ)
    (hfence : enforceLeaseGenerationFence (Ledger.run opKind leases calls).leases opKind holderFp generation t =
      .ok ()) :
    ∀ d ∈ (Ledger.run opKind leases calls).granted, d.holderFp ≠ holderFp → d.generation ≤ generation := by
  obtain ⟨c, hc, rfl, rfl⟩ := fence_ok_iff.mp hfence
  obtain ⟨hmem, hlive, hbest⟩ := currentLease_spec hc
  obtain ⟨-, hout⟩ := run_outlasted hnew hord
  intro d hd hne
  by_contra hlt
  obtain ⟨e, he, -, hge, hx⟩ := hout c hmem d hd hne (not_le.mp hlt)
  simp only [isExpired, decide_eq_false_iff_not, not_le] at hlive hbest
  have hout := hbest e he (hlive.trans_le hx)
  simp only [outranks, decide_eq_false_iff_not, not_or, not_lt] at hout
  exact hlt (hge.trans hout.1)

def lapsedPreemption : List Call := [⟨"a", 100, 0⟩, ⟨"b", 1, 1⟩]

theorem fence_accepts_lapsedPreemption : (Ledger.run "enrichment" ∅ lapsedPreemption).granted =
        [⟨"enrichment", "a", 0, 100, 1⟩, ⟨"enrichment", "b", 1, 1, 2⟩] ∧
      enforceLeaseGenerationFence (Ledger.run "enrichment" ∅ lapsedPreemption).leases "enrichment" "a" 1 50 =
        .ok () := by
  decide +kernel

def uniformCalls : List Call := [⟨"a", 10, 0⟩, ⟨"b", 10, 5⟩, ⟨"a", 10, 7⟩, ⟨"a", 10, 20⟩]

theorem fence_rejects_stale_batch_uniformCalls :
    enforceLeaseGenerationFence (Ledger.run "enrichment" ∅ uniformCalls).leases "enrichment" "a" 3 25 = .ok () ∧
      ∀ d ∈ (Ledger.run "enrichment" ∅ uniformCalls).granted, d.holderFp ≠ "a" → d.generation ≤ 3 := by
  have hfence : enforceLeaseGenerationFence (Ledger.run "enrichment" ∅ uniformCalls).leases "enrichment" "a" 3 25 =
      .ok () := by decide +kernel
  exact ⟨hfence, fence_rejects_stale_batch "enrichment" ∅ (by decide +kernel) uniformCalls (by decide +kernel) 25
    "a" 3 hfence⟩

end Mae.Sync.Lease
