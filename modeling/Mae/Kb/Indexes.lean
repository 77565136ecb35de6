import Mae.Kb.KnowledgeBase

/-! Whether the indexes of a knowledge base describe its nodes. -/

namespace Mae.Kb

open Std (ExtTreeMap)
open Library Checks Sync Sync.Membership Std.ExtTreeMap Function Option Inverted

def keysBy {Wire κ : Type} (nodes : ExtTreeMap String (Node Wire)) (f : Node Wire → List κ) (id : String) : List κ :=
  nodes[id]?.elim [] f

section Keys

variable {Wire κ : Type} {nodes : ExtTreeMap String (Node Wire)} {f : Node Wire → List κ} {id : String}

lemma keysBy_insert (node : Node Wire) :
    keysBy (nodes.insert id node) f = Function.update (keysBy nodes f) id (f node) := by
  funext i
  by_cases hi : i = id
  · subst hi
    simp [keysBy]
  · simp [keysBy, getElem?_insert, hi, Ne.symm hi]

lemma keysBy_erase : keysBy (nodes.erase id) f = Function.update (keysBy nodes f) id [] := by
  funext i
  by_cases hi : i = id
  · subst hi
    simp [keysBy]
  · simp [keysBy, getElem?_erase, hi, Ne.symm hi]

variable [Ord κ] [Std.TransOrd κ] [Std.LawfulEqOrd κ] [DecidableEq κ] {m : Inverted κ String}
  {drop : Inverted κ String → κ → Inverted κ String}

omit [Std.LawfulEqOrd κ] in
lemma describes_unindexed (hdrop : Removes id drop) (h : m.Describes (keysBy nodes f)) :
    (nodes[id]?.elim m fun prev => (f prev).foldl drop m).Describes (Function.update (keysBy nodes f) id []) := by
  have hkeys : (nodes[id]?.elim m fun prev => (f prev).foldl drop m) = (keysBy nodes f id).foldl drop m := by
    unfold keysBy
    cases nodes[id]? <;> rfl
  rw [hkeys]
  exact h.remove hdrop

omit [Std.LawfulEqOrd κ] in
lemma describes_removed (hdrop : Removes id drop) (h : m.Describes (keysBy nodes f)) {prev : Node Wire}
    (hprev : nodes[id]? = some prev) : ((f prev).foldl drop m).Describes (keysBy (nodes.erase id) f) := by
  have hout := describes_unindexed hdrop h
  rw [hprev] at hout
  rw [keysBy_erase]
  exact hout

lemma describes_reindexed (hdrop : Removes id drop) (h : m.Describes (keysBy nodes f)) (node : Node Wire) :
    ((f node).foldl (push id) (nodes[id]?.elim m fun prev => (f prev).foldl drop m)).Describes
      (keysBy (nodes.insert id node) f) := by
  rw [keysBy_insert]
  exact (describes_unindexed hdrop h).push id (f node)

end Keys

variable (H : Host)

structure LinksIndexed {Wire : Type} (kb : KnowledgeBase Wire) : Prop where
  keyed : ∀ (id : String) (n : Node Wire), kb.nodes[id]? = some n → n.id = id
  linksIn : kb.linksIn.Describes (keysBy kb.nodes (Node.links H))

structure FieldsIndexed {Wire : Type} (kb : KnowledgeBase Wire) : Prop where
  todo : kb.todoIndex.Describes (keysBy kb.nodes fun n => n.todoState.toList)
  priority : kb.priorityIndex.Describes (keysBy kb.nodes fun n => n.priority.toList)
  tags : kb.tagIndex.Describes (keysBy kb.nodes Node.tags)
  lower : ∀ id : String, kb.lower[id]? = kb.nodes[id]?.map (LowerCache.fromNode H)

structure SameEntries {Wire : Type} (n n' : Node Wire) : Prop where
  todo : n.todoState = n'.todoState
  priority : n.priority = n'.priority
  tags : ∀ t, t ∈ n.tags ↔ t ∈ n'.tags
  lower : LowerCache.fromNode H n = LowerCache.fromNode H n'

section Local

variable {H} {Wire : Type} {kb : KnowledgeBase Wire}

lemma linksIndexed_new : LinksIndexed H (KnowledgeBase.new : KnowledgeBase Wire) where
  keyed id n h := by simp [KnowledgeBase.new] at h
  linksIn := Describes.empty.congr fun id k => by simp [keysBy, KnowledgeBase.new]

lemma fieldsIndexed_new : FieldsIndexed H (KnowledgeBase.new : KnowledgeBase Wire) where
  todo := Describes.empty.congr fun id k => by simp [keysBy, KnowledgeBase.new]
  priority := Describes.empty.congr fun id k => by simp [keysBy, KnowledgeBase.new]
  tags := Describes.empty.congr fun id k => by simp [keysBy, KnowledgeBase.new]
  lower id := by simp [KnowledgeBase.new]

lemma insert_eq (node : Node Wire) (kb : KnowledgeBase Wire) : kb.insert H node = (kb.nodes[node.id]?,
      { nodes := kb.nodes.insert node.id node
        linksIn := (node.links H).foldl (push node.id)
          (kb.nodes[node.id]?.elim kb.linksIn fun p => (p.links H).foldl (prune node.id) kb.linksIn)
        lower := kb.lower.insert node.id (LowerCache.fromNode H node)
        todoIndex := node.todoState.toList.foldl (push node.id)
          (kb.nodes[node.id]?.elim kb.todoIndex fun p =>
            p.todoState.toList.foldl (discard node.id) kb.todoIndex)
        priorityIndex := node.priority.toList.foldl (push node.id)
          (kb.nodes[node.id]?.elim kb.priorityIndex fun p =>
            p.priority.toList.foldl (discard node.id) kb.priorityIndex)
        tagIndex := node.tags.foldl (push node.id)
          (kb.nodes[node.id]?.elim kb.tagIndex fun p =>
            p.tags.foldl (discard node.id) kb.tagIndex) }) := by
  simp only [KnowledgeBase.insert]
  cases kb.nodes[node.id]? <;> rfl

lemma LinksIndexed.insert (h : LinksIndexed H kb) (node : Node Wire) : LinksIndexed H (kb.insert H node).2 := by
  rw [insert_eq]
  constructor
  · intro id n hn
    rw [getElem?_insert] at hn
    split at hn
    · rename_i heq
      cases hn
      exact Std.LawfulEqOrd.compare_eq_iff_eq.mp heq
    · exact h.keyed id n hn
  · exact describes_reindexed (removes_prune node.id) h.linksIn node

lemma FieldsIndexed.insert (h : FieldsIndexed H kb) (node : Node Wire) : FieldsIndexed H (kb.insert H node).2 := by
  rw [insert_eq]
  constructor
  · exact describes_reindexed (removes_discard node.id) h.todo node
  · exact describes_reindexed (removes_discard node.id) h.priority node
  · exact describes_reindexed (removes_discard node.id) h.tags node
  · intro id
    simp only [getElem?_insert, h.lower]
    split <;> rfl

lemma LinksIndexed.remove (h : LinksIndexed H kb) (id : String) : LinksIndexed H (kb.remove H id).2 := by
  unfold KnowledgeBase.remove
  cases hid : kb.nodes[id]? with
  | none => exact h
  | some prev =>
    constructor
    · intro i n hn
      simp only [KnowledgeBase.unindex, getElem?_erase] at hn
      split at hn
      · cases hn
      · exact h.keyed i n hn
    · exact describes_removed (removes_prune id) h.linksIn hid

lemma FieldsIndexed.remove (h : FieldsIndexed H kb) (id : String) : FieldsIndexed H (kb.remove H id).2 := by
  unfold KnowledgeBase.remove
  cases hid : kb.nodes[id]? with
  | none => exact h
  | some prev =>
    constructor
    · exact describes_removed (removes_discard id) h.todo hid
    · exact describes_removed (removes_discard id) h.priority hid
    · exact describes_removed (removes_discard id) h.tags hid
    · intro i
      simp only [KnowledgeBase.unindex, getElem?_erase, h.lower]
      split <;> rfl

lemma removeNodes_preserves {P : KnowledgeBase Wire → Prop} (hstep : ∀ kb id, P kb → P (kb.remove H id).2)
    (ids : List String) (kb : KnowledgeBase Wire) (h : P kb) : P (kb.removeNodes H ids).2 := by
  induction ids generalizing kb with
  | nil => exact h
  | cons id ids ih => exact ih _ (hstep kb id h)

lemma LinksIndexed.relink (id : String) (h : LinksIndexed H kb) :
    LinksIndexed H (kb.relink id (keysBy kb.nodes (Node.links H) id)) where
  keyed := h.keyed
  linksIn := by
    have hpush := (h.linksIn.purge id).push id (keysBy kb.nodes (Node.links H) id)
    rwa [update_eq_self] at hpush

def retouch (H : Host) (id : String) (node : Node Wire) (kb : KnowledgeBase Wire) : KnowledgeBase Wire :=
  { kb with nodes := kb.nodes.insert id node }.relink node.id (node.links H)

lemma LinksIndexed.retouch (h : LinksIndexed H kb) (node : Node Wire) : LinksIndexed H (retouch H node.id node kb) where
  keyed id n hn := by
    simp only [Kb.retouch, KnowledgeBase.relink, getElem?_insert] at hn
    split at hn
    · rename_i heq
      cases hn
      exact Std.LawfulEqOrd.compare_eq_iff_eq.mp heq
    · exact h.keyed id n hn
  linksIn := by
    simp only [Kb.retouch, KnowledgeBase.relink, keysBy_insert]
    exact (h.linksIn.purge node.id).push node.id (node.links H)

lemma describes_insert_iff {κ : Type} [Ord κ] [Std.TransOrd κ] [Std.LawfulEqOrd κ] {m : Inverted κ String}
    {f : Node Wire → List κ} {id : String} {prev : Node Wire} (hprev : kb.nodes[id]? = some prev)
    (h : m.Describes (keysBy kb.nodes f)) (node : Node Wire) :
    m.Describes (keysBy (kb.nodes.insert id node) f) ↔ ∀ k, k ∈ f prev ↔ k ∈ f node := by
  have hat : keysBy kb.nodes f id = f prev := by simp [keysBy, hprev]
  rw [keysBy_insert]
  constructor
  · intro h' k
    have hiff := (h.mem id k).symm.trans (h'.mem id k)
    rwa [hat, update_self] at hiff
  · intro hsame
    refine h.congr fun i k => ?_
    by_cases hi : i = id
    · subst hi
      rw [hat, update_self]
      exact hsame k
    · rw [update_of_ne hi]

lemma option_eq_iff_mem_toList {α : Type} {a b : Option α} : (∀ x, x ∈ a.toList ↔ x ∈ b.toList) ↔ a = b := by
  constructor
  · intro h
    refine Option.ext fun x => ?_
    simpa using h x
  · rintro rfl x
    rfl

lemma fieldsIndexed_retouch_iff (h : FieldsIndexed H kb) {id : String} {prev node : Node Wire}
    (hprev : kb.nodes[id]? = some prev) : FieldsIndexed H (retouch H id node kb) ↔ SameEntries H prev node := by
  constructor
  · intro h'
    refine ⟨?_, ?_, ?_, ?_⟩
    · exact option_eq_iff_mem_toList.mp ((describes_insert_iff hprev h.todo node).mp h'.todo)
    · exact option_eq_iff_mem_toList.mp ((describes_insert_iff hprev h.priority node).mp h'.priority)
    · exact (describes_insert_iff hprev h.tags node).mp h'.tags
    · have hboth := (h.lower id).symm.trans (h'.lower id)
      simpa [retouch, KnowledgeBase.relink, hprev] using hboth
  · intro hsame
    refine ⟨?_, ?_, ?_, ?_⟩
    · exact (describes_insert_iff hprev h.todo node).mpr (option_eq_iff_mem_toList.mpr hsame.todo)
    · exact (describes_insert_iff hprev h.priority node).mpr (option_eq_iff_mem_toList.mpr hsame.priority)
    · exact (describes_insert_iff hprev h.tags node).mpr hsame.tags
    · intro i
      simp only [retouch, KnowledgeBase.relink, getElem?_insert, h.lower]
      split
      · rename_i heq
        obtain rfl := Std.LawfulEqOrd.compare_eq_iff_eq.mp heq
        rw [hprev, map_some, map_some, hsame.lower]
      · rfl

end Local

/-! ### Calls -/

variable {H} {kb kb' : KnowledgeBase.Of H} {remoteDiff remoteSv update : H.yrs.Wire} {merge mint probe : Mint}
  {changed div : Bool}

lemma applyRemoteUpdate_cases {id : String} (h : kb.applyRemoteUpdate mint id update = .ok (changed, kb')) :
    (kb.nodes[id]? = none ∧ changed = true ∧
        ∃ d, H.yrs.decode update = .ok d ∧ kb' = (kb.insert H (Node.received H.yrs d .note)).2) ∨
      ∃ node d u, kb.nodes[id]? = some node ∧ node.toCrdtDoc H.yrs mint = .ok d ∧ H.yrs.decode update = .ok u ∧
        changed = (contentHash H.crypto (H.yrs.read d) != contentHash H.crypto (H.yrs.read (d ∪ u))) ∧
        kb' = if changed then retouch H id (node.applyCrdtDoc H.yrs (d ∪ u)) kb else kb := by
  unfold KnowledgeBase.applyRemoteUpdate at h
  cases hid : kb.nodes[id]? with
  | none =>
    rw [hid] at h
    obtain ⟨d, hd, h⟩ := bind_ok_iff.mp h
    cases h
    exact .inl ⟨rfl, rfl, d, hd, rfl⟩
  | some node =>
    rw [hid] at h
    obtain ⟨d, hd, h⟩ := bind_ok_iff.mp h
    obtain ⟨_, happly, h⟩ := bind_ok_iff.mp h
    obtain ⟨u, hu, hmerged⟩ := bind_ok_iff.mp happly
    cases hmerged
    refine .inr ⟨node, d, u, rfl, hd, hu, ?_⟩
    dsimp only at h
    split at h
    · rename_i hne
      cases h
      exact ⟨hne.symm, rfl⟩
    · rename_i heq
      cases h
      exact ⟨(Bool.not_eq_true _ ▸ heq).symm, rfl⟩

lemma applyRemoteUpdate_of_node {id : String}
    {node : Node H.yrs.Wire} {d u : H.yrs.Doc} (hnode : kb.nodes[id]? = some node)
    (hd : node.toCrdtDoc H.yrs mint = .ok d) (hu : H.yrs.decode update = .ok u) :
    ∃ res, kb.applyRemoteUpdate mint id update = .ok res := by
  simp only [KnowledgeBase.applyRemoteUpdate, hnode, hd, applyUpdate, hu, bind, Except.bind, pure, Except.pure]
  split <;> exact ⟨_, rfl⟩

lemma reconcileRemoteNode_cases {ahead : Mint} {id : String} {out : ReconcileOutcome H.yrs.Wire}
    (h : kb.reconcileRemoteNode probe merge ahead id remoteDiff remoteSv = .ok (out, kb')) :
    (kb.diverged probe id remoteSv = .ok true ∧ out = ⟨.divergentLineage, false, none⟩ ∧ kb' = kb) ∨
      (kb.diverged probe id remoteSv = .ok false ∧ ∃ changed, kb.applyRemoteUpdate merge id remoteDiff =
          .ok (changed, kb') ∧
        ((id ∉ kb.nodes ∧ out = ⟨.created, changed, none⟩) ∨
          (id ∈ kb.nodes ∧ ∃ l, kb'.localAhead ahead id remoteSv = .ok l ∧ out = ⟨.merged, changed, l⟩))) := by
  obtain ⟨div, hdiv, h⟩ := bind_ok_iff.mp h
  cases div with
  | true =>
    cases h
    exact .inl ⟨hdiv, rfl, rfl⟩
  | false =>
    obtain ⟨⟨changed, kb1⟩, happly, h⟩ := bind_ok_iff.mp h
    refine .inr ⟨hdiv, changed, ?_⟩
    by_cases hid : id ∈ kb.nodes
    · simp only [hid, decide_true, if_true] at h
      obtain ⟨l, hl, h⟩ := bind_ok_iff.mp h
      cases h
      exact ⟨happly, .inr ⟨hid, l, hl, rfl⟩⟩
    · simp only [hid, decide_false] at h
      cases h
      exact ⟨happly, .inl ⟨hid, rfl⟩⟩

lemma toCrdtDoc_of_ok {Y : NodeYrs} {node : Node Y.Wire} {d : Y.Doc}
    (h : node.toCrdtDoc Y mint = .ok d) (mint' : Mint) : ∃ d', node.toCrdtDoc Y mint' = .ok d' := by
  unfold Node.toCrdtDoc at h ⊢
  cases hb : node.crdtDoc with
  | none => exact ⟨_, rfl⟩
  | some bytes =>
    rw [hb] at h
    exact ⟨d, h⟩

lemma toCrdtDoc_applyCrdtDoc {Y : NodeYrs} (node : Node Y.Wire) (d : Y.Doc) (mint : Mint) :
    (node.applyCrdtDoc Y d).toCrdtDoc Y mint = .ok d :=
  Y.decode_encode d

lemma diverged_of_state {id : String}
    {node : Node H.yrs.Wire} {d : H.yrs.Doc} (h : kb.diverged probe id remoteSv = .ok div)
    (hnode : kb.nodes[id]? = some node) (hd : node.toCrdtDoc H.yrs mint = .ok d) :
    ∃ remote, H.yrs.decodeSv remoteSv = .ok remote := by
  obtain ⟨d', hd'⟩ := toCrdtDoc_of_ok hd probe
  have hpre : kb.nodeStateVector probe id = some (OpSet.stateVector d') := by
    simp [KnowledgeBase.nodeStateVector, hnode, hd', Except.toOption]
  unfold KnowledgeBase.diverged at h
  rw [hpre] at h
  cases hsv : H.yrs.decodeSv remoteSv with
  | error e =>
    rw [hsv] at h
    cases h
  | ok remote => exact ⟨remote, rfl⟩

lemma exists_localAhead {id : String} (hdiv : kb.diverged probe id remoteSv = .ok div)
    (happly : kb.applyRemoteUpdate merge id remoteDiff = .ok (changed, kb')) (hid : id ∈ kb.nodes) (ahead : Mint) :
    ∃ l, kb'.localAhead ahead id remoteSv = .ok l := by
  rcases applyRemoteUpdate_cases happly with ⟨hnone, -, -⟩ | ⟨node, d, u, hnode, hd, -, -, hkb⟩
  · exact absurd hid (by simpa using hnone)
  · obtain ⟨remote, hsv⟩ := diverged_of_state hdiv hnode hd
    obtain ⟨node', d', hnode', hd'⟩ : ∃ node' d', kb'.nodes[id]? = some node' ∧ node'.toCrdtDoc H.yrs ahead = .ok d' := by
      cases changed with
      | true => exact ⟨_, d ∪ u, by simp [hkb, retouch, KnowledgeBase.relink], toCrdtDoc_applyCrdtDoc node _ ahead⟩
      | false =>
        obtain ⟨d', hd'⟩ := toCrdtDoc_of_ok hd ahead
        exact ⟨node, d', by simpa [hkb] using hnode, hd'⟩
    simp only [KnowledgeBase.localAhead, hnode', hd', hsv]
    exact ⟨_, rfl⟩

inductive Call (H : Host) where
  | insert (node : Node H.yrs.Wire)
  | remove (id : String)
  | removeNodes (ids : List String)
  | upsertWithCrdt (node : Node H.yrs.Wire) (client : ℕ)
  | applyRemoteUpdate (mint : Mint) (id : String) (update : H.yrs.Wire)
  | adoptRemoteNode (id : String) (state : H.yrs.Wire)
  | reconcileRemoteNode (probe merge ahead : Mint) (id : String) (remoteDiff remoteSv : H.yrs.Wire)

def settle {α : Type} (kb : KnowledgeBase.Of H) : Except String (α × KnowledgeBase.Of H) → KnowledgeBase.Of H
  | .ok (_, kb') => kb'
  | .error _ => kb

def Call.run (kb : KnowledgeBase.Of H) : Call H → KnowledgeBase.Of H
  | .insert node => (kb.insert H node).2
  | .remove id => (kb.remove H id).2
  | .removeNodes ids => (kb.removeNodes H ids).2
  | .upsertWithCrdt node client => (kb.upsertWithCrdt node client).2
  | .applyRemoteUpdate mint id update => settle kb (kb.applyRemoteUpdate mint id update)
  | .adoptRemoteNode id state => settle kb (kb.adoptRemoteNode id state)
  | .reconcileRemoteNode probe merge ahead id remoteDiff remoteSv =>
    settle kb (kb.reconcileRemoteNode probe merge ahead id remoteDiff remoteSv)

def MergeRetains (mint : Mint) (id : String) (update : H.yrs.Wire) (kb : KnowledgeBase.Of H) : Prop :=
  ∀ node d u, kb.nodes[id]? = some node → node.toCrdtDoc H.yrs mint = .ok d → H.yrs.decode update = .ok u →
    contentHash H.crypto (H.yrs.read d) ≠ contentHash H.crypto (H.yrs.read (d ∪ u)) →
    SameEntries H node (node.applyCrdtDoc H.yrs (d ∪ u))

def Call.Retains (kb : KnowledgeBase.Of H) : Call H → Prop
  | .applyRemoteUpdate mint id update => MergeRetains mint id update kb
  | .reconcileRemoteNode probe merge _ id remoteDiff remoteSv =>
    kb.diverged probe id remoteSv = .ok false → MergeRetains merge id remoteDiff kb
  | _ => True

lemma settle_rec {α : Type} {P : KnowledgeBase.Of H → Prop}
    {r : Except String (α × KnowledgeBase.Of H)} (h : P kb) (hok : ∀ a kb', r = .ok (a, kb') → P kb') : P (settle kb r) := by
  cases r with
  | error e => exact h
  | ok res => exact hok res.1 res.2 rfl

lemma LinksIndexed.applyRemoteUpdate (h : LinksIndexed H kb) {id : String} (happly : kb.applyRemoteUpdate mint id update = .ok (changed, kb')) :
    LinksIndexed H kb' := by
  rcases applyRemoteUpdate_cases happly with ⟨-, -, d, -, rfl⟩ | ⟨node, d, u, hnode, -, -, -, rfl⟩
  · exact h.insert _
  · split
    · have hid : (node.applyCrdtDoc H.yrs (d ∪ u)).id = id := h.keyed id node hnode
      have hret := h.retouch (node.applyCrdtDoc H.yrs (d ∪ u))
      rwa [hid] at hret
    · exact h

lemma fieldsIndexed_applyRemoteUpdate_iff (h : FieldsIndexed H kb) {id : String}
    (happly : kb.applyRemoteUpdate mint id update = .ok (changed, kb')) :
    FieldsIndexed H kb' ↔ MergeRetains mint id update kb := by
  rcases applyRemoteUpdate_cases happly with ⟨hnone, -, d, -, rfl⟩ | ⟨node, d, u, hnode, hd, hu, hchanged, rfl⟩
  · refine ⟨fun _ node d u hnode => ?_, fun _ => h.insert _⟩
    rw [hnone] at hnode
    cases hnode
  · have hretains : MergeRetains mint id update kb ↔
        (changed = true → SameEntries H node (node.applyCrdtDoc H.yrs (d ∪ u))) := by
      constructor
      · intro hr htrue
        exact hr node d u hnode hd hu (by simpa [htrue] using hchanged)
      · intro hs node1 d1 u1 hnode1 hd1 hu1 hne
        obtain rfl := mem_unique hnode hnode1
        obtain rfl := Except.ok.inj (hd.symm.trans hd1)
        obtain rfl := Except.ok.inj (hu.symm.trans hu1)
        exact hs (by simpa [hchanged] using hne)
    rw [hretains]
    cases changed with
    | true => simpa using fieldsIndexed_retouch_iff h hnode
    | false => simpa using h

lemma LinksIndexed.adoptRemoteNode (h : LinksIndexed H kb) (id : String)
    (state : H.yrs.Wire) : LinksIndexed H (settle kb (kb.adoptRemoteNode id state)) := by
  unfold KnowledgeBase.adoptRemoteNode
  cases H.yrs.decode state with
  | error e => exact h
  | ok d =>
    let kb' := (kb.insert H (Node.received H.yrs d ((kb.nodes[id]?.map Node.kind).getD .note))).2
    have hkeys : keysBy kb'.nodes (Node.links H) id = (kb'.nodes[id]?.map (Node.links H)).getD [] := by
      unfold keysBy
      cases kb'.nodes[id]? <;> rfl
    have hrelink : LinksIndexed H (kb'.relink id (keysBy kb'.nodes (Node.links H) id)) := (h.insert _).relink id
    rw [hkeys] at hrelink
    exact hrelink

lemma FieldsIndexed.adoptRemoteNode (h : FieldsIndexed H kb) (id : String)
    (state : H.yrs.Wire) : FieldsIndexed H (settle kb (kb.adoptRemoteNode id state)) := by
  unfold KnowledgeBase.adoptRemoteNode
  cases H.yrs.decode state with
  | error e => exact h
  | ok d =>
    have hins := h.insert (Node.received H.yrs d ((kb.nodes[id]?.map Node.kind).getD .note))
    exact ⟨hins.todo, hins.priority, hins.tags, hins.lower⟩

lemma LinksIndexed.run (h : LinksIndexed H kb) (c : Call H) : LinksIndexed H (c.run kb) := by
  cases c with
  | insert node => exact h.insert node
  | remove id => exact h.remove id
  | removeNodes ids => exact removeNodes_preserves (fun _ id h => h.remove id) ids kb h
  | upsertWithCrdt node client => exact h.insert _
  | applyRemoteUpdate mint id update =>
    exact settle_rec h fun _ _ happly => h.applyRemoteUpdate happly
  | adoptRemoteNode id state => exact h.adoptRemoteNode id state
  | reconcileRemoteNode probe merge ahead id remoteDiff remoteSv =>
    refine settle_rec h fun out kb' hrec => ?_
    rcases reconcileRemoteNode_cases hrec with ⟨-, -, hkb⟩ | ⟨-, changed, happly, -⟩
    · rwa [hkb]
    · exact h.applyRemoteUpdate happly

lemma reconcileRemoteNode_of_apply {id : String} (hdiv : kb.diverged probe id remoteSv = .ok false)
    (happly : kb.applyRemoteUpdate merge id remoteDiff = .ok (changed, kb')) (ahead : Mint) :
    ∃ out, kb.reconcileRemoteNode probe merge ahead id remoteDiff remoteSv = .ok (out, kb') := by
  unfold KnowledgeBase.reconcileRemoteNode
  rw [hdiv, happly]
  by_cases hid : id ∈ kb.nodes
  · obtain ⟨l, hl⟩ := exists_localAhead hdiv happly hid ahead
    simp only [hid, decide_true, Except.bind, bind, pure, Except.pure]
    simp [hl]
  · simp only [hid, decide_false]
    exact ⟨_, rfl⟩

lemma mergeRetains_of_error {id : String} {e : String}
    (happly : kb.applyRemoteUpdate mint id update = .error e) : MergeRetains mint id update kb := by
  intro node d u hnode hd hu
  obtain ⟨res, hok⟩ := applyRemoteUpdate_of_node hnode hd hu
  rw [happly] at hok
  cases hok

lemma fieldsIndexed_run_iff (h : FieldsIndexed H kb) (c : Call H) : FieldsIndexed H (c.run kb) ↔ c.Retains kb := by
  cases c with
  | insert node => exact iff_of_true (h.insert node) trivial
  | remove id => exact iff_of_true (h.remove id) trivial
  | removeNodes ids => exact iff_of_true (removeNodes_preserves (fun _ id h => h.remove id) ids kb h) trivial
  | upsertWithCrdt node client => exact iff_of_true (h.insert _) trivial
  | adoptRemoteNode id state => exact iff_of_true (h.adoptRemoteNode id state) trivial
  | applyRemoteUpdate mint id update =>
    cases happly : kb.applyRemoteUpdate mint id update with
    | ok res =>
      simp only [Call.run, settle, happly]
      exact fieldsIndexed_applyRemoteUpdate_iff h happly
    | error e =>
      simp only [Call.run, settle, happly]
      exact iff_of_true h (mergeRetains_of_error happly)
  | reconcileRemoteNode probe merge ahead id remoteDiff remoteSv =>
    cases hrec : kb.reconcileRemoteNode probe merge ahead id remoteDiff remoteSv with
    | error e =>
      simp only [Call.run, settle, hrec]
      refine iff_of_true h fun hdiv => ?_
      cases happly : kb.applyRemoteUpdate merge id remoteDiff with
      | error e => exact mergeRetains_of_error happly
      | ok res =>
        obtain ⟨out, hok⟩ := reconcileRemoteNode_of_apply hdiv happly ahead
        cases hrec.symm.trans hok
    | ok res =>
      simp only [Call.run, settle, hrec]
      rcases reconcileRemoteNode_cases hrec with ⟨hdiv, -, hkb⟩ | ⟨hdiv, changed, happly, -⟩
      · rw [hkb]
        exact iff_of_true h fun hfalse => nomatch hdiv.symm.trans hfalse
      · rw [fieldsIndexed_applyRemoteUpdate_iff h happly]
        exact ⟨fun hr _ => hr, fun hr => hr hdiv⟩

def runCalls (calls : List (Call H)) (kb : KnowledgeBase.Of H) : KnowledgeBase.Of H := calls.foldl Call.run kb

def RetainsAll : List (Call H) → KnowledgeBase.Of H → Prop
  | [], _ => True
  | c :: cs, kb => c.Retains kb ∧ RetainsAll cs (c.run kb)

lemma LinksIndexed.runCalls (calls : List (Call H)) (h : LinksIndexed H kb) : LinksIndexed H (runCalls calls kb) := by
  induction calls generalizing kb with
  | nil => exact h
  | cons c cs ih => exact ih (h.run c)

lemma fieldsIndexed_runCalls_iff (calls : List (Call H)) (h : FieldsIndexed H kb) :
    (∀ n, FieldsIndexed H (runCalls (calls.take n) kb)) ↔ RetainsAll calls kb := by
  induction calls generalizing kb with
  | nil => exact iff_of_true (fun n => by simpa [runCalls] using h) trivial
  | cons c cs ih =>
    constructor
    · intro hall
      have hfirst : FieldsIndexed H (c.run kb) := hall 1
      exact ⟨(fieldsIndexed_run_iff h c).mp hfirst, (ih hfirst).mp fun n => hall (n + 1)⟩
    · rintro ⟨hc, hcs⟩ n
      have hfirst := (fieldsIndexed_run_iff h c).mpr hc
      cases n with
      | zero => exact h
      | succ n => exact (ih hfirst).mpr hcs n

theorem indexes_describe_nodes (calls : List (Call H)) :
    (∀ n, LinksIndexed H (runCalls (calls.take n) KnowledgeBase.new)) ∧
      ((∀ n, FieldsIndexed H (runCalls (calls.take n) KnowledgeBase.new)) ↔ RetainsAll calls KnowledgeBase.new) :=
  ⟨fun n => linksIndexed_new.runCalls (calls.take n), fieldsIndexed_runCalls_iff calls fieldsIndexed_new⟩

section Sample

open OpSet

def sampleBase : SampleNode := {.insert 1 0 (.root (sampleRoot "n" "body" []))}

def sampleTagging : SampleNode := {.delete 1 0, .insert 2 0 (.root (sampleRoot "n" "body" ["urgent"]))}

def sampleCalls : List (Call Host.sample) :=
  [.adoptRemoteNode "n" (sampleBytes sampleBase), .applyRemoteUpdate sampleMint "n" (sampleBytes sampleTagging)]

theorem tag_index_misses_merged_tag :
    (runCalls sampleCalls KnowledgeBase.new).nodes["n"]?.map Node.tags = some ["urgent"] ∧
      (runCalls sampleCalls KnowledgeBase.new).tagIndex.entries "urgent" = [] ∧
      (runCalls sampleCalls KnowledgeBase.new).lower["n"]?.map LowerCache.tags = some [] := by
  decide +kernel

end Sample

end Mae.Kb
