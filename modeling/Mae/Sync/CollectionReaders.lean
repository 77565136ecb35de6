import Mae.Sync.CollectionWrites

/-! Who may read a KB by its collection, and which writes take that from nobody. -/

namespace Mae.Sync.Root

open Sync.Membership List

variable {root : Root} {principal : String}

def Reads (root : Root) (principal : String) (transport : Transport) : Prop :=
  ∃ role, root.roleOf principal = some role ∧ (role = .owner ∨ root.transportPolicy.allows transport = true)

def sensitive : List String := ["schema", "member_roles", "transport_policy"]

structure Retains (spared : String → Prop) (before after : Root) : Prop where
  schema : 2 ≤ before.schemaVersion → 2 ≤ after.schemaVersion
  reads : ∀ principal transport, spared principal → before.Reads principal transport → after.Reads principal transport

variable {spared : String → Prop} {before mid after : Root}

lemma Retains.refl (root : Root) : Retains spared root root := ⟨id, fun _ _ _ => id⟩

lemma schemaVersion_congr (h : after["schema"]? = before["schema"]?) : after.schemaVersion = before.schemaVersion := by
  rw [schemaVersion, text, h, schemaVersion, text]

lemma transportPolicy_congr (h : after["transport_policy"]? = before["transport_policy"]?) :
    after.transportPolicy = before.transportPolicy := by
  rw [transportPolicy, transportPolicyRaw, text, h, transportPolicy, transportPolicyRaw, text]

lemma roleOf_congr (h : (after.entries "member_roles")[principal]? = (before.entries "member_roles")[principal]?) :
    after.roleOf principal = before.roleOf principal := by
  rw [roleOf, record, h, roleOf, record]

lemma retains_of_path {ws : List Write} (h : ∀ w ∈ ws, w.path.1 ∉ sensitive) : Retains spared root (root.writes ws) := by
  have hkey : ∀ key ∈ sensitive, (root.writes ws)[key]? = root[key]? := fun key hkey =>
    getElem?_writes_of_ne fun w hw heq => h w hw (heq ▸ hkey)
  have hschema := schemaVersion_congr (hkey "schema" (by decide))
  have htransport := transportPolicy_congr (hkey "transport_policy" (by decide))
  have hentries : (root.writes ws).entries "member_roles" = root.entries "member_roles" := by
    rw [entries, hkey "member_roles" (by decide), entries]
  refine ⟨fun hs => hschema ▸ hs, fun p t _ => ?_⟩
  rintro ⟨role, hrole, hread⟩
  refine ⟨role, ?_, htransport ▸ hread⟩
  rw [← hrole]
  apply roleOf_congr
  rw [hentries]

lemma retains_write {w : Write} (h : w.path.1 ∉ sensitive) : Retains spared root (root.writes [w]) :=
  retains_of_path (forall_mem_singleton.mpr h)

lemma writes_append (root : Root) (ws ws' : List Write) : root.writes (ws ++ ws') = (root.writes ws).writes ws' :=
  foldl_append

lemma getElem?_ensureMap (root : Root) (key : String) :
    (root.writes (root.ensureMap key))[key]? = some (.map (root.entries key)) := by
  rw [ensureMap, entries]
  cases hcell : root[key]? with
  | none => simp [writes, write]
  | some cell =>
    cases cell with
    | any text => simp [writes, write]
    | array items => simp [writes, write]
    | map entries => simpa [writes] using hcell

variable {key : String} {pre : List Write} {w : Write}

lemma getElem?_writes_ensureMap {ws : List Write} (h : ∀ w ∈ ws, w.path.1 ≠ key) :
    (root.writes (ws ++ root.ensureMap key))[key]? = some (.map (root.entries key)) := by
  have hcell : (root.writes ws)[key]? = root[key]? := getElem?_writes_of_ne h
  have hensure : (root.writes ws).ensureMap key = root.ensureMap key := by rw [ensureMap, hcell, ensureMap]
  rw [writes_append, ← hensure, getElem?_ensureMap, entries, hcell, entries]

lemma getElem?_ofList (l : List (String × String)) (k : String) :
    (Std.ExtTreeMap.ofList l)[k]? = l.reverse.findSome? fun p => if p.1 = k then some p.2 else none := by
  rw [Std.ExtTreeMap.ofList_eq_insertMany_empty, Std.ExtTreeMap.getElem?_insertMany_list]
  simp [findSomeRev?_eq_findSome?_reverse]

lemma role_memberFields (role : Role) (label : String) (epoch : UInt64) :
    (Std.ExtTreeMap.ofList (memberFields role label epoch))["role"]? = some role.asStr := by
  rw [getElem?_ofList]
  simp [memberFields]

lemma roleOf_seated {post : List Write} (hpre : ∀ w ∈ pre, w.path.1 ≠ "member_roles")
    (hpost : ∀ w ∈ post, w.path.1 ≠ "member_roles") (seat : String) (role : Role) (label : String) (epoch : UInt64)
    (principal : String) :
    (root.writes (pre ++ root.ensureMap "member_roles" ++ [.putRecord "member_roles" seat (memberFields role label
        epoch)] ++ post)).roleOf
      principal = if principal = seat then some role else root.roleOf principal := by
  have hmap : (root.writes (pre ++ root.ensureMap "member_roles"))["member_roles"]? =
      some (.map (root.entries "member_roles")) := getElem?_writes_ensureMap hpre
  have hentries : (root.writes (pre ++ root.ensureMap "member_roles" ++
      [.putRecord "member_roles" seat (memberFields role label epoch)] ++ post)).entries "member_roles" =
        (root.entries "member_roles").insert seat (.map (Std.ExtTreeMap.ofList (memberFields role label epoch))) := by
    rw [writes_append, entries, getElem?_writes_of_ne hpost]
    simp [writes] at hmap ⊢
    simp [write, modifyMap, hmap]
  rw [roleOf, record, hentries, Std.ExtTreeMap.getElem?_insert]
  by_cases h : principal = seat
  · subst h
    simp [Item.fields?, role_memberFields, Role.parse_asStr]
  · simp [h, Ne.symm h, roleOf, record]

lemma eq_of_mem_ite {p : Prop} [Decidable p] {w' : Write} (hw : w ∈ if p then [w'] else []) : w = w' :=
  mem_singleton.mp (mem_ite_nil_right.mp hw).2

lemma roleOf_seatMember (hpre : ∀ w ∈ pre, w.path.1 ≠ "member_roles") (root : Root) (seat label : String) (role : Role)
    (token : UInt64) (principal : String) :
    (root.writes (pre ++ root.seatMember seat label role token)).roleOf principal = if principal = seat then some role
      else root.roleOf principal := by
  rw [seatMember, ← append_assoc, ← append_assoc]
  apply roleOf_seated hpre
  intro w hw
  rw [eq_of_mem_ite hw]
  exact (by decide : "retired" ≠ "member_roles")

lemma ensureMap_path (h : w ∈ root.ensureMap key) : w.path.1 = key := by
  rw [ensureMap] at h
  split at h
  · cases h
  · rw [mem_singleton.mp h]
    rfl

lemma seatMember_path {seat label : String} {role : Role} {token : UInt64}
    (h : w ∈ root.seatMember seat label role token) :
    w.path.1 = "member_roles" ∨ w.path.1 = "retired" := by
  rw [seatMember, mem_append, mem_append] at h
  rcases h with (h | h) | h
  · exact .inl (ensureMap_path h)
  · rw [mem_singleton.mp h]
    exact .inl rfl
  · split_ifs at h
    · rw [mem_singleton.mp h]
      exact .inr rfl
    · cases h

lemma retains_seatMember (hpre : ∀ w ∈ pre, w.path.1 ∉ sensitive) (root : Root) (seat label : String) (role : Role)
    (token : UInt64) (h : spared seat → role = .owner ∨ root.roleOf seat ≠ some .owner) :
    Retains spared root (root.writes (pre ++ root.seatMember seat label role token)) := by
  have hroles : ∀ w ∈ pre, w.path.1 ≠ "member_roles" := fun w hw heq => hpre w hw (by rw [heq]; decide)
  have hcell : ∀ key ∈ sensitive, key ≠ "member_roles" →
      (root.writes (pre ++ root.seatMember seat label role token))[key]? = root[key]? := by
    intro key hkey hne
    apply getElem?_writes_of_ne
    intro w hw heq
    rcases mem_append.mp hw with hw | hw
    · exact hpre w hw (heq ▸ hkey)
    · rcases seatMember_path hw with hpath | hpath
      · exact hne (heq.symm.trans hpath)
      · rw [← heq, hpath] at hkey
        exact absurd hkey (by decide)
  have htransport := transportPolicy_congr (hcell "transport_policy" (by decide) (by decide))
  refine ⟨schemaVersion_congr (hcell "schema" (by decide) (by decide)) ▸ id, ?_⟩
  rintro p t hspared ⟨oldRole, hold, hread⟩
  rw [Reads, roleOf_seatMember hroles, htransport]
  by_cases hp : p = seat
  · subst hp
    refine ⟨role, if_pos rfl, (h hspared).imp_right fun hother => hread.resolve_left ?_⟩
    rintro rfl
    exact hother hold
  · exact ⟨oldRole, by rw [if_neg hp, hold], hread⟩

lemma reads_upsertMember (root : Root) (seat label : String) (role : Role) (token : UInt64) {transport : Transport}
    (h : root.transportPolicy.allows transport = true) :
    (root.writes (root.upsertMember seat label role token)).Reads seat transport := by
  refine ⟨role, ?_, .inr ?_⟩
  · have hrole := @roleOf_seatMember [] (by simp) root seat label role token seat
    rwa [if_pos rfl] at hrole
  · rw [← h]
    congr 1
    apply transportPolicy_congr
    apply getElem?_writes_of_ne
    intro w hw heq
    rcases seatMember_path hw with hpath | hpath
    · exact (by decide : "member_roles" ≠ "transport_policy") (hpath.symm.trans heq)
    · exact (by decide : "retired" ≠ "transport_policy") (hpath.symm.trans heq)

lemma retains_upsertMember (root : Root) (seat label : String) (role : Role) (token : UInt64)
    (h : spared seat → role = .owner ∨ root.roleOf seat ≠ some .owner) :
    Retains spared root (root.writes (root.upsertMember seat label role token)) :=
  @retains_seatMember _ [] (by simp) root seat label role token h

lemma retains_approve (root : Root) (seat : String) (role : Role) (token : UInt64)
    (h : spared seat → role = .owner ∨ root.roleOf seat ≠ some .owner) :
    Retains spared root (root.writes (root.approve seat role token)) := by
  apply retains_seatMember _ root seat _ role token h
  exact forall_mem_singleton.mpr (by decide : "pending" ∉ sensitive)

lemma retains_ensureMap (hkey : key ∉ sensitive) (hw : w.path.1 = key) :
    Retains spared root (root.writes (root.ensureMap key ++ [w])) := by
  apply retains_of_path
  rw [forall_mem_append, forall_mem_singleton, hw]
  exact ⟨fun w' hw' => ensureMap_path hw' ▸ hkey, hkey⟩

lemma retains_addPending (root : Root) (principal label requestedAt : String) (pubkey wrapPubkey : Option Key32) :
    Retains spared root (root.writes (root.addPending principal label requestedAt pubkey wrapPubkey)) :=
  retains_ensureMap (by decide) rfl

lemma retains_appendSignedOp (root : Root) (C : Crypto) (o : SignedMembershipOp) :
    Retains spared root (root.writes (root.appendSignedOp C o)) :=
  retains_ensureMap (by decide) rfl

lemma retains_claimLease (root : Root) (opKind holderFp : String) (ttlSecs now : ℕ) :
    Retains spared root (root.writes (root.claimLease opKind holderFp ttlSecs now)) := by
  rw [claimLease]
  split
  · exact retains_ensureMap (by decide) rfl
  · exact .refl root

lemma retains_setJoinPolicy (root : Root) (policy : JoinPolicy) :
    Retains spared root (root.writes (setJoinPolicy policy)) :=
  retains_write (by decide : "join_policy" ∉ sensitive)

lemma retains_addNode (root : Root) (nodeId title : String) : Retains spared root (root.writes (addNode nodeId title)) :=
  retains_write (by decide : "nodes" ∉ sensitive)

lemma retains_removeNode (root : Root) (nodeId : String) : Retains spared root (root.writes (removeNode nodeId)) :=
  retains_write (by decide : "nodes" ∉ sensitive)

lemma removePrincipal_path {removed : String} (h : w ∈ root.removePrincipal removed) :
    w.path = ("member_roles", some removed) ∨ w.path.1 = "retired" := by
  rw [removePrincipal, mem_append] at h
  rcases h with h | h
  · rw [mem_singleton.mp h]
    exact .inl rfl
  · split at h
    · rcases mem_append.mp h with h | h
      · exact .inr (ensureMap_path h)
      · rw [mem_singleton.mp h]
        exact .inr rfl
    · cases h

lemma retains_removePrincipal (root : Root) (removed : String) (h : ¬ spared removed) :
    Retains spared root (root.writes (root.removePrincipal removed)) := by
  have hretired : "retired" ≠ "member_roles" := by decide
  have hcell : ∀ key, key ≠ "member_roles" → key ≠ "retired" →
      (root.writes (root.removePrincipal removed))[key]? = root[key]? := by
    intro key hroles hkey
    apply getElem?_writes_of_ne
    intro w hw heq
    rcases removePrincipal_path hw with hpath | hpath
    · exact hroles (heq.symm.trans (congrArg Prod.fst hpath))
    · exact hkey (heq.symm.trans hpath)
  have htransport := transportPolicy_congr (hcell "transport_policy" (by decide) (by decide))
  refine ⟨schemaVersion_congr (hcell "schema" (by decide) (by decide)) ▸ id, ?_⟩
  rintro p t hspared ⟨role, hrole, hread⟩
  refine ⟨role, ?_, htransport ▸ hread⟩
  rw [← hrole]
  apply roleOf_congr
  apply entries_writes_of_ne
  · intro w hw heq
    rcases removePrincipal_path hw with hpath | hpath
    · cases heq.symm.trans hpath
    · exact hretired (hpath.symm.trans (congrArg Prod.fst heq))
  · intro w hw heq
    rcases removePrincipal_path hw with hpath | hpath
    · obtain rfl := Option.some.inj (congrArg Prod.snd (heq.symm.trans hpath))
      exact h hspared
    · exact hretired (hpath.symm.trans (congrArg Prod.fst heq))

lemma allows_union (policy requested : TransportPolicy) (transport : Transport) (h : policy.allows transport = true) :
    (policy.union requested).allows transport = true := by
  cases policy <;> cases requested <;> cases transport <;> simp_all [TransportPolicy.union, TransportPolicy.allows]

lemma transportPolicyRaw_set (root : Root) (policy : TransportPolicy) :
    (root.writes (setTransportPolicy policy)).transportPolicyRaw = some policy := by
  have hparse : TransportPolicy.parse policy.asStr = some policy := by cases policy <;> decide +kernel
  simp [transportPolicyRaw, text, setTransportPolicy, writes, write, Cell.toStr, hparse]

lemma getElem?_setTransportPolicy (root : Root) (policy : TransportPolicy) (h : key ≠ "transport_policy") :
    (root.writes (setTransportPolicy policy))[key]? = root[key]? := by
  exact getElem?_writes_of_ne (forall_mem_singleton.mpr h.symm)

lemma schemaVersion_setTransportPolicy (root : Root) (policy : TransportPolicy) :
    (root.writes (setTransportPolicy policy)).schemaVersion = root.schemaVersion :=
  schemaVersion_congr (getElem?_setTransportPolicy root policy (by decide))

lemma roleOf_setTransportPolicy (root : Root) (policy : TransportPolicy) (principal : String) :
    (root.writes (setTransportPolicy policy)).roleOf principal = root.roleOf principal := by
  apply roleOf_congr
  rw [entries, getElem?_setTransportPolicy root policy (by decide), entries]

lemma retains_widened (root : Root) {policy : TransportPolicy} (hpolicy : root.transportPolicyRaw = some policy)
    (requested : TransportPolicy) :
    Retains spared root (root.writes (setTransportPolicy (policy.union requested))) := by
  refine ⟨schemaVersion_setTransportPolicy root _ ▸ id, ?_⟩
  rintro p t - ⟨role, hrole, hread⟩
  refine ⟨role, ?_, hread.imp_right fun hallows => ?_⟩
  · rw [roleOf_setTransportPolicy, hrole]
  · rw [transportPolicy, transportPolicyRaw_set]
    rw [transportPolicy, hpolicy] at hallows
    exact allows_union policy requested t hallows

lemma roleOf_setOwner (root : Root) (principal label : String) (token : UInt64) :
    (root.writes (root.setOwner principal label token)).roleOf principal = some .owner := by
  rw [setOwner, ← append_nil (_ ++ [Write.putRecord _ _ _]), roleOf_seated, if_pos rfl]
  · simp [or_imp, forall_and, Write.path]
  · simp

lemma schemaVersion_setOwner (root : Root) (principal label : String) (token : UInt64)
    (h : root["schema"]? = none ∨ 2 ≤ root.schemaVersion) :
    2 ≤ (root.writes (root.setOwner principal label token)).schemaVersion := by
  have hset : ∀ root' : Root, root'["schema"]? = some (.any "2") → 2 ≤ root'.schemaVersion := by
    intro root' hcell
    rw [schemaVersion, text, hcell]
    decide +kernel
  rw [setOwner, append_assoc, append_assoc, append_assoc, writes_append, schemaVersion_congr (getElem?_writes_of_ne _)]
  · cases hcell : root["schema"]? with
    | none =>
      apply hset
      simp [writes, write]
    | some cell =>
      rw [hcell] at h
      have hkept : (root.writes [.put "owner" principal, .put "creator" label])["schema"]? = root["schema"]? := by
        simp [writes, write, Std.ExtTreeMap.getElem?_insert]
      rw [if_neg (by simp), append_nil, schemaVersion_congr hkept]
      exact h.resolve_left (by simp)
  · intro w hw
    simp only [mem_append] at hw
    rcases hw with hw | hw | hw | hw
    · rw [eq_of_mem_ite hw]
      exact (by decide)
    · rw [eq_of_mem_ite hw]
      exact (by decide)
    · rw [ensureMap_path hw]
      decide
    · rw [mem_singleton.mp hw]
      exact (by decide : "member_roles" ≠ "schema")

end Mae.Sync.Root
