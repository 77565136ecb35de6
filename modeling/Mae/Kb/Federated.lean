import Mae.Kb.Node
import Mae.Library.FirstWins

/-! Queries that fan out over a primary store and the instances registered beside it. -/

namespace Mae.Kb

open Std (ExtTreeMap)
open Library Std.ExtTreeMap List FirstWins

structure SearchHit where
  id : String
  score : ℚ
deriving DecidableEq

/-- A store that answers, and only about the nodes that it has. -/
structure QueryLayer (Filter Wire : Type) where
  get : String → Option (Node Wire)
  contains : String → Bool
  search : (query : String) → (limit : ℕ) → List SearchHit
  agenda : Filter → List (Node Wire)
  todoNodes : List (Node Wire)
  idTitleBodyTriples : (start : Option String) → (bodyLimit : ℕ) → List (String × String × String)
  contains_eq : ∀ id, contains id = (get id).isSome
  search_held : ∀ query limit, ∀ hit ∈ search query limit, (get hit.id).isSome = true
  agenda_held : ∀ filter, ∀ n ∈ agenda filter, (get n.id).isSome = true
  todo_held : ∀ n ∈ todoNodes, (get n.id).isSome = true
  triples_held : ∀ start limit id, id ∈ (idTitleBodyTriples start limit).map Prod.fst ↔
    (get id).isSome = true ∧ start.all (fun p => id.startsWith p) = true

structure Instance (Filter Wire : Type) where
  name : String
  priority : UInt32
  layer : QueryLayer Filter Wire

structure FederatedQuery (Filter Wire : Type) where
  primary : QueryLayer Filter Wire
  instances : List (Instance Filter Wire)
  maxFanoutInstances : ℕ

namespace FederatedQuery

variable {Filter Wire : Type} (f : FederatedQuery Filter Wire)

def priorityOrderedInstances : List (Instance Filter Wire) :=
  (f.instances.mergeSort fun a b => decide (b.priority ≤ a.priority)).take f.maxFanoutInstances

def get (id : String) : Option (Node Wire) :=
  match f.primary.get id with
  | some node => some node
  | none => f.priorityOrderedInstances.findSome? fun inst => inst.layer.get id

def contains (id : String) : Bool := f.primary.contains id || f.instances.any fun inst => inst.layer.contains id

def offer (priority : ℤ) (byId : ExtTreeMap String (ℤ × SearchHit)) (hit : SearchHit) :
    ExtTreeMap String (ℤ × SearchHit) :=
  match byId[hit.id]? with
  | some (existing, _) => if existing < priority then byId.insert hit.id (priority, hit) else byId
  | none => byId.insert hit.id (priority, hit)

def primaryHits (hits : List SearchHit) : ExtTreeMap String (ℤ × SearchHit) :=
  hits.foldl (fun byId hit => byId.insert hit.id (2 ^ 63 - 1, hit)) ∅

variable {α : Type} (query : String) (key : α → String) (answers : QueryLayer Filter Wire → List α)

def mergedHits (limit : ℕ) : ExtTreeMap String (ℤ × SearchHit) :=
  f.priorityOrderedInstances.foldl
    (fun byId inst => (inst.layer.search query limit).foldl (offer inst.priority.toNat) byId)
    (primaryHits (f.primary.search query limit))

def hitOrder (a b : SearchHit) : Bool := decide (b.score < a.score ∨ (a.score = b.score ∧ a.id ≤ b.id))

def search (limit : ℕ) : List SearchHit :=
  (((f.mergedHits query limit).toList.map fun p => p.2.2).mergeSort hitOrder).take limit

def agenda (filter : Filter) : List (Node Wire) :=
  FirstWins.merge Node.id (f.primary.agenda filter)
    (f.priorityOrderedInstances.map fun inst => inst.layer.agenda filter)

def todoNodes : List (Node Wire) :=
  FirstWins.merge Node.id f.primary.todoNodes (f.priorityOrderedInstances.map fun inst => inst.layer.todoNodes)

def idTitleBodyTriples (start : Option String) (bodyLimit : ℕ) : List (String × String × String) :=
  FirstWins.merge Prod.fst (f.primary.idTitleBodyTriples start bodyLimit)
    (f.priorityOrderedInstances.map fun inst => inst.layer.idTitleBodyTriples start bodyLimit)

/-! ### Owners -/

def stores : List (QueryLayer Filter Wire) := f.primary :: f.priorityOrderedInstances.map Instance.layer

def holds (layer : QueryLayer Filter Wire) (id : String) : Bool := (layer.get id).isSome

def owner (id : String) : Option (QueryLayer Filter Wire) := f.stores.find? fun layer => holds layer id

lemma get_eq_owner (id : String) : f.get id = (f.owner id).bind fun layer => layer.get id := by
  have hlist : ∀ l : List (Instance Filter Wire), (l.findSome? fun inst => inst.layer.get id) =
      ((l.map Instance.layer).find? fun layer => holds layer id).bind fun layer => layer.get id := by
    intro l
    induction l with
    | nil => rfl
    | cons inst l ih =>
      cases hget : inst.layer.get id with
      | none => simp [hget, ih, holds]
      | some n => simp [hget, holds]
  unfold get owner stores
  cases hget : f.primary.get id with
  | none => simp [hlist, holds, hget]
  | some n => simp [holds, hget]

lemma get_isSome_iff (id : String) : (f.get id).isSome = true ↔ ∃ layer ∈ f.stores, holds layer id = true := by
  rw [get_eq_owner]
  constructor
  · intro h
    cases ho : f.owner id with
    | none => simp [ho] at h
    | some layer => exact ⟨layer, mem_of_find?_eq_some ho, by simpa using find?_some ho⟩
  · rintro ⟨layer, hmem, hholds⟩
    cases ho : f.owner id with
    | none => exact absurd hholds (by simpa using find?_eq_none.mp ho layer hmem)
    | some layer' =>
      have hl : holds layer' id = true := by simpa using find?_some ho
      simpa [holds] using hl

def CapReaches : Prop :=
  ∀ inst ∈ f.instances, ∀ id, holds inst.layer id = true → ∃ layer ∈ f.stores, holds layer id = true

lemma contains_iff (id : String) :
    f.contains id = true ↔ holds f.primary id = true ∨ ∃ inst ∈ f.instances, holds inst.layer id = true := by
  simp [contains, holds, QueryLayer.contains_eq]

lemma mem_instances_of_ordered {inst : Instance Filter Wire} (h : inst ∈ f.priorityOrderedInstances) :
    inst ∈ f.instances :=
  mem_mergeSort.mp (mem_of_mem_take h)

lemma contains_eq_get_iff : (∀ id, f.contains id = (f.get id).isSome) ↔ f.CapReaches := by
  constructor
  · intro hall inst hinst id hholds
    rw [← f.get_isSome_iff, ← hall id, f.contains_iff]
    exact .inr ⟨inst, hinst, hholds⟩
  · intro hcap id
    rw [Bool.eq_iff_iff, f.contains_iff, f.get_isSome_iff]
    constructor
    · rintro (hprimary | ⟨inst, hinst, hholds⟩)
      · exact ⟨f.primary, mem_cons_self, hprimary⟩
      · exact hcap inst hinst id hholds
    · rintro ⟨layer, hmem, hholds⟩
      rcases mem_cons.mp hmem with rfl | hmem
      · exact .inl hholds
      · obtain ⟨inst, hinst, rfl⟩ := List.mem_map.mp hmem
        exact .inr ⟨inst, f.mem_instances_of_ordered hinst, hholds⟩

/-! ### The merge of search hits -/

structure Merged (lists : List (List SearchHit)) (bound : ℤ) (byId : ExtTreeMap String (ℤ × SearchHit)) : Prop where
  hit : ∀ (id : String) (p : ℤ) (h : SearchHit), byId[id]? = some (p, h) →
    h.id = id ∧ FromFirst SearchHit.id lists h ∧ bound ≤ p
  known : ∀ id : String, (∃ l ∈ lists, id ∈ l.map SearchHit.id) → id ∈ byId

/-- The state while the hits of one more answer come in. -/
structure Merging (lists : List (List SearchHit)) (answer : List SearchHit) (q : ℤ)
    (byId : ExtTreeMap String (ℤ × SearchHit)) : Prop where
  hit : ∀ (id : String) (p : ℤ) (h : SearchHit), byId[id]? = some (p, h) →
    h.id = id ∧ FromFirst SearchHit.id (lists ++ [answer]) h ∧ q ≤ p
  known : ∀ id : String, (∃ l ∈ lists, id ∈ l.map SearchHit.id) → id ∈ byId

section

variable {lists : List (List SearchHit)} {answer : List SearchHit} {q bound : ℤ}
  {byId : ExtTreeMap String (ℤ × SearchHit)} {hit : SearchHit}

lemma Merged.merging (h : Merged lists bound byId) (hq : q ≤ bound) (answer : List SearchHit) :
    Merging lists answer q byId where
  hit id p hit hget := by
    obtain ⟨hid, hfirst, hp⟩ := h.hit id p hit hget
    exact ⟨hid, hfirst.append [answer], hq.trans hp⟩
  known := h.known

lemma Merging.insert (h : Merging lists answer q byId) (hhit : hit ∈ answer)
    (hnew : ∀ l ∈ lists, hit.id ∉ l.map SearchHit.id) : Merging lists answer q (byId.insert hit.id (q, hit)) where
  hit id p h' hget := by
    rw [ExtTreeMap.getElem?_insert] at hget
    split at hget
    · rename_i heq
      cases hget
      exact ⟨Std.LawfulEqOrd.compare_eq_iff_eq.mp heq, ⟨lists, answer, [], rfl, hhit, hnew⟩, le_refl _⟩
    · exact h.hit id p h' hget
  known id hid := mem_insert.mpr (.inr (h.known id hid))

lemma Merging.offer (h : Merging lists answer q byId) (hhit : hit ∈ answer) :
    Merging lists answer q (offer q byId hit) := by
  unfold FederatedQuery.offer
  cases hget : byId[hit.id]? with
  | none =>
    refine h.insert hhit fun l hl hid => ?_
    have hmem := h.known hit.id ⟨l, hl, hid⟩
    rw [mem_iff_isSome_getElem?, hget] at hmem
    cases hmem
  | some entry =>
    have hle : q ≤ entry.1 := (h.hit hit.id entry.1 entry.2 hget).2.2
    simpa [not_lt.mpr hle] using h

lemma mem_offer_of_mem {id : String} (h : id ∈ byId) : id ∈ offer q byId hit := by
  unfold offer
  split
  · split
    · exact mem_insert.mpr (.inr h)
    · exact h
  · exact mem_insert.mpr (.inr h)

lemma mem_offer_self : hit.id ∈ offer q byId hit := by
  unfold offer
  cases hget : byId[hit.id]? with
  | none => exact ExtTreeMap.mem_insert_self
  | some entry =>
    simp only
    split
    · exact ExtTreeMap.mem_insert_self
    · rw [mem_iff_isSome_getElem?, hget]
      rfl

lemma Merging.foldl (take : ExtTreeMap String (ℤ × SearchHit) → SearchHit → ExtTreeMap String (ℤ × SearchHit))
    (hkeep : ∀ byId, ∀ hit ∈ answer, Merging lists answer q byId → Merging lists answer q (take byId hit))
    (hmem : ∀ byId hit id, id ∈ byId → id ∈ take byId hit) (hself : ∀ byId hit, hit.id ∈ take byId hit)
    (h : Merging lists answer q byId) : Merged (lists ++ [answer]) q (answer.foldl take byId) := by
  have hall : ∀ (new : List SearchHit) (byId : ExtTreeMap String (ℤ × SearchHit)), (∀ hit ∈ new, hit ∈ answer) →
      Merging lists answer q byId → Merging lists answer q (new.foldl take byId) ∧
        ∀ id : String, id ∈ byId ∨ id ∈ new.map SearchHit.id → id ∈ new.foldl take byId := by
    intro new
    induction new with
    | nil => exact fun byId _ h => ⟨h, fun id hid => hid.resolve_right not_mem_nil⟩
    | cons hit new ih =>
      intro byId hsub h
      obtain ⟨hdone, hknown⟩ := ih (take byId hit) (fun h' hh' => hsub h' (mem_cons_of_mem _ hh'))
        (hkeep byId hit (hsub hit mem_cons_self) h)
      refine ⟨hdone, fun id hid => hknown id ?_⟩
      rcases hid with hid | hid
      · exact .inl (hmem byId hit id hid)
      · rcases mem_cons.mp hid with rfl | hid
        · exact .inl (hself byId hit)
        · exact .inr hid
  obtain ⟨hdone, hknown⟩ := hall answer byId (fun _ h => h) h
  refine ⟨hdone.hit, fun id hid => hknown id ?_⟩
  obtain ⟨l, hl, hid⟩ := hid
  rcases mem_append.mp hl with hl | hl
  · exact .inl (h.known id ⟨l, hl, hid⟩)
  · obtain rfl := mem_singleton.mp hl
    exact .inr hid

end

lemma merged_primaryHits (hits : List SearchHit) : Merged [hits] (2 ^ 63 - 1) (primaryHits hits) := by
  have hstart : Merging [] hits (2 ^ 63 - 1) ∅ := by
    constructor
    · intro id p h hget
      simp at hget
    · rintro id ⟨l, hl, -⟩
      exact absurd hl not_mem_nil
  refine hstart.foldl _ ?_ ?_ ?_
  · intro byId hit hhit h
    exact h.insert hhit fun l hl => absurd hl not_mem_nil
  · intro byId hit id hid
    exact mem_insert.mpr (.inr hid)
  · intro byId hit
    exact ExtTreeMap.mem_insert_self

lemma priorityOrdered_pairwise :
    f.priorityOrderedInstances.Pairwise fun a b => (b.priority.toNat : ℤ) ≤ a.priority.toNat := by
  have hsorted : (f.instances.mergeSort fun a b => decide (b.priority ≤ a.priority)).Pairwise
      fun a b => decide (b.priority ≤ a.priority) = true := by
    refine pairwise_mergeSort ?_ ?_ f.instances
    · intro a b c hab hbc
      simp only [decide_eq_true_eq] at hab hbc ⊢
      exact UInt32.le_trans hbc hab
    · intro a b
      simpa using UInt32.le_total b.priority a.priority
  refine (hsorted.sublist (take_sublist _ _)).imp fun {a b} hab => ?_
  exact_mod_cast UInt32.le_iff_toNat_le.mp (of_decide_eq_true hab)

lemma merged_foldl_offer (limit : ℕ) (rest : List (Instance Filter Wire))
    (hpair : rest.Pairwise fun a b => (b.priority.toNat : ℤ) ≤ a.priority.toNat) {lists : List (List SearchHit)}
    {bound : ℤ} {byId : ExtTreeMap String (ℤ × SearchHit)} (h : Merged lists bound byId)
    (hbound : ∀ inst ∈ rest, inst.priority.toNat ≤ bound) :
    ∃ bound', Merged (lists ++ rest.map fun inst => inst.layer.search query limit) bound'
      (rest.foldl (fun byId inst => (inst.layer.search query limit).foldl (offer inst.priority.toNat) byId) byId) := by
  induction rest generalizing lists bound byId with
  | nil => exact ⟨bound, by simpa using h⟩
  | cons inst rest ih =>
    obtain ⟨hfirst, hrest⟩ := pairwise_cons.mp hpair
    have hdone := (h.merging (hbound inst mem_cons_self) (inst.layer.search query limit)).foldl
      (offer inst.priority.toNat) (fun _ _ hhit h => h.offer hhit) (fun _ _ _ => mem_offer_of_mem)
      (fun _ _ => mem_offer_self)
    obtain ⟨bound', hall⟩ := ih hrest hdone hfirst
    exact ⟨bound', by simpa using hall⟩

lemma fromFirst_of_mem_search {query : String} {limit : ℕ} {hit : SearchHit} (h : hit ∈ f.search query limit) :
    FromFirst SearchHit.id (f.stores.map fun layer => layer.search query limit) hit := by
  obtain ⟨bound, hmerged⟩ := merged_foldl_offer query limit f.priorityOrderedInstances f.priorityOrdered_pairwise
    (merged_primaryHits (f.primary.search query limit)) fun inst _ => by
      have := inst.priority.toNat_lt
      omega
  obtain ⟨⟨id, p, h'⟩, hmem, rfl⟩ := List.mem_map.mp (mem_mergeSort.mp (mem_of_mem_take h))
  have hget := mem_toList_iff_getElem?_eq_some.mp hmem
  have hfirst := (hmerged.hit id p h' hget).2.1
  rw [stores, map_cons, List.map_map]
  exact hfirst

/-! ### Shadowing -/

def Shadowed (shown : List α) : Prop :=
  ∀ a ∈ shown, ∃ layer, f.owner (key a) = some layer ∧ a ∈ answers layer

def OwnersAnswer : Prop :=
  ∀ layer ∈ f.stores, ∀ a ∈ answers layer, ∀ o, f.owner (key a) = some o → key a ∈ (answers o).map key

lemma shadowed_merge_iff (hheld : ∀ layer, ∀ a ∈ answers layer, holds layer (key a) = true) : f.Shadowed key answers
      (FirstWins.merge key (answers f.primary) (f.priorityOrderedInstances.map fun inst => answers inst.layer)) ↔
      f.OwnersAnswer key answers := by
  have hiff := consistent_merge_iff f.primary (f.priorityOrderedInstances.map Instance.layer)
    fun layer _ => hheld layer
  rw [List.map_map] at hiff
  exact hiff

lemma ownersAnswer_triples (start : Option String) (limit : ℕ) :
    f.OwnersAnswer Prod.fst fun layer => layer.idTitleBodyTriples start limit := by
  intro layer _ a ha o ho
  have hstart := (layer.triples_held start limit a.1).mp (mem_map_of_mem ha)
  have hown : holds o a.1 = true := by simpa using find?_some ho
  exact (o.triples_held start limit a.1).mpr ⟨hown, hstart.2⟩

def sampleLayer (nodes : List (Node Unit)) : QueryLayer String Unit where
  get id := nodes.find? fun n => n.id == id
  contains id := (nodes.find? fun n => n.id == id).isSome
  search query limit := ((nodes.filter fun n => n.body == query).map fun n => ⟨n.id, 1⟩).take limit
  agenda tag := nodes.filter fun n => n.tags.contains tag
  todoNodes := nodes.filter fun n => n.todoState.isSome
  idTitleBodyTriples start limit :=
    (nodes.filter fun n => start.all fun p => n.id.startsWith p).map
      fun n => (n.id, n.title, String.ofList (n.body.toList.take limit))
  contains_eq _ := rfl
  search_held query limit hit hhit := by
    obtain ⟨n, hn, rfl⟩ := List.mem_map.mp (mem_of_mem_take hhit)
    exact find?_isSome.mpr ⟨n, (List.mem_filter.mp hn).1, by simp⟩
  agenda_held tag n hn := find?_isSome.mpr ⟨n, (List.mem_filter.mp hn).1, by simp⟩
  todo_held n hn := find?_isSome.mpr ⟨n, (List.mem_filter.mp hn).1, by simp⟩
  triples_held start limit id := by
    rw [List.map_map, find?_isSome]
    constructor
    · intro h
      obtain ⟨n, hn, rfl⟩ := List.mem_map.mp h
      exact ⟨⟨n, (List.mem_filter.mp hn).1, by simp⟩, (List.mem_filter.mp hn).2⟩
    · rintro ⟨⟨n, hn, hid⟩, hstart⟩
      obtain rfl : n.id = id := by simpa using hid
      exact List.mem_map.mpr ⟨n, List.mem_filter.mpr ⟨hn, hstart⟩, rfl⟩

def sampleCopy (body : String) (todo : Option String) : Node Unit :=
  { (Node.new "n" "Title" .task body : Node Unit) with todoState := todo }

def sampleFederation (cap : ℕ) : FederatedQuery String Unit where
  primary := sampleLayer [sampleCopy "new" none]
  instances := [⟨"team", 0, sampleLayer [sampleCopy "old" (some "TODO"), Node.new "m" "Other" .note "text"]⟩]
  maxFanoutInstances := cap

end FederatedQuery

end Mae.Kb
