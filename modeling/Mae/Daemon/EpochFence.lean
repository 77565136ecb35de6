import Mae.Library.CausalLog
import Mae.Sync.Membership.Op

/-! Updates of a node document and the fence that admits only operations under the client id of the sender's epoch. -/

namespace Mae.Daemon

open Library.CausalLog Library.Checks Sync.Membership List

variable {β : Type}

def foldHashToYrsClientId (h : UInt64) : UInt64 :=
  let folded := (h ^^^ (h >>> 53)) &&& 0x1fffffffffffff
  if folded = 0 ∨ folded = 1 then 2 else folded

def fnvStep (h : UInt64) (b : UInt8) : UInt64 := (h ^^^ b.toUInt64) * 0x00000100000001b3

def leBytes (n : UInt64) : List UInt8 := (List.range 8).map fun i => (n >>> (8 * i).toUInt64).toUInt8

def deriveKbClientId (fingerprint : String) (epoch : UInt64) : UInt64 :=
  foldHashToYrsClientId ((asBytes fingerprint ++ leBytes epoch).foldl fnvStep 0xcbf29ce484222325)

abbrev NodeOp (β : Type) := Op UInt64 β

abbrev NodeLog (β : Type) := Log UInt64 β

/-- `Update::state_vector`: the operations of a client up to the first gap, from number 0 on. -/
def updateClock (u : List (NodeOp β)) (c : UInt64) : ℕ :=
  ((List.range u.length).takeWhile fun k => u.any fun o => o.client = c ∧ o.clock = k).length

def updateNewOpAuthors (u : List (NodeOp β)) (base : NodeLog β) : List UInt64 :=
  let after := base.absorb u
  let advanced := fun c => nextClock base.integrated c < nextClock after.integrated c ∨
    nextClock base.integrated c < updateClock u c
  (((after.integrated ++ u).map (·.client)).filter fun c => advanced c).dedup.insertionSort (· ≤ ·)

/-- A `kb/node_update` request: what it asks for, and what the gates other than the fence say to it. -/
structure NodeUpdate (β : Type) where
  kbId : String
  nodeId : String
  principal : Option String
  /-- The update, or why the bytes do not decode. -/
  update : Except String (List (NodeOp β))
  reseal : Bool
  rebirth : Bool
  /-- The role of the sender and, if there is one, the signed header. -/
  access : Except String Unit
  /-- `kb_member_epoch` of the sender, or why there is no collection to look it up in. -/
  epoch : Except String UInt64
  /-- `verify_rebirth_binding`. -/
  binding : Except String Unit

/-- `doc` is `none` if there is no such document yet. -/
def enforceEpochFence (doc : Option (NodeLog β)) (r : NodeUpdate β) (principal : String) : Except String Unit := do
  let epochNow ← r.epoch.mapError fun e => s!"epoch lookup failed for KB '{r.kbId}': {e}"
  let cNow := deriveKbClientId principal epochNow
  match doc with
  | none => .ok ()
  | some base =>
    let u ← r.update.mapError fun e => s!"could not decode update: {e}"
    match (updateNewOpAuthors u base).find? fun a => a ≠ cNow with
    | some stale =>
      .error (s!"rebase required: node '{r.nodeId}' carries an op from stale-epoch client {stale} " ++
        s!"(current-epoch author is {cNow}, epoch {epochNow}); adopt authoritative state and re-author the edit")
    | none => .ok ()

def fenceGate (doc : Option (NodeLog β)) (r : NodeUpdate β) : Except String Unit :=
  match r.principal with
  | some principal => if r.reseal then .ok () else enforceEpochFence doc r principal
  | none => .ok ()

def gateRebirth (r : NodeUpdate β) : Except String Unit := if r.rebirth then r.binding else .ok ()

def handleKbNodeUpdate (doc : Option (NodeLog β)) (r : NodeUpdate β) : Except String (NodeLog β) := do
  r.access
  fenceGate doc r
  gateRebirth r
  let u ← r.update.mapError fun e => s!"failed to apply node update: sqlite: invalid update: {e}"
  -- a reseal and a rebirth replace the document, an edit is merged into it
  .ok (if r.reseal || r.rebirth then Log.empty.absorb u else (doc.getD .empty).absorb u)

section Fence

variable {u : List (NodeOp β)} {base : NodeLog β} {c : UInt64}

lemma mem_of_updateClock_pos (h : 0 < updateClock u c) : ∃ o ∈ u, o.client = c := by
  rw [updateClock] at h
  obtain ⟨k, hk⟩ := exists_mem_of_length_pos h
  have hmet := mem_takeWhile_imp hk
  obtain ⟨o, ho, hclient⟩ := any_eq_true.mp hmet
  exact ⟨o, ho, (of_decide_eq_true hclient).1⟩

lemma author_of_integrated {o : NodeOp β} (ho : o ∈ (base.absorb u).integrated) (hnew : o ∉ base.integrated) :
    o.client ∈ updateNewOpAuthors u base := by
  obtain ⟨new, heq, -⟩ := base.absorb_grows u
  have hmem : o ∈ new := by
    rw [heq] at ho
    exact (mem_append.mp ho).resolve_right hnew
  have hadvanced : nextClock base.integrated o.client < nextClock (base.absorb u).integrated o.client := by
    rw [heq]
    exact nextClock_lt_of_mem hmem
  rw [updateNewOpAuthors, mem_insertionSort, mem_dedup, mem_filter]
  refine ⟨mem_map.mpr ⟨o, mem_append_left _ ho, rfl⟩, ?_⟩
  simp [hadvanced]

lemma mem_of_author (hpending : base.pending = []) (hc : c ∈ updateNewOpAuthors u base) : ∃ o ∈ u, o.client = c := by
  rw [updateNewOpAuthors, mem_insertionSort, mem_dedup, mem_filter] at hc
  rcases of_decide_eq_true hc.2 with hclock | hclock
  · obtain ⟨new, heq, hmem⟩ := base.absorb_grows u
    rw [heq] at hclock
    obtain ⟨o, ho, hclient⟩ := exists_of_nextClock_lt hclock
    rcases hmem o ho with hold | hu
    · simp [hpending] at hold
    · exact ⟨o, hu, hclient⟩
  · exact mem_of_updateClock_pos (Nat.zero_lt_of_lt hclock)

lemma enforceEpochFence_eq_ok {r : NodeUpdate β} {p : String} : enforceEpochFence (some base) r p = .ok () ↔
      ∃ e, r.epoch = .ok e ∧ ∃ u, r.update = .ok u ∧ ∀ a ∈ updateNewOpAuthors u base, a = deriveKbClientId p e := by
  rw [enforceEpochFence]
  simp only [mapError_ok_iff, bind_ok_iff]
  refine exists_congr fun e => and_congr_right fun _ => exists_congr fun u => and_congr_right fun _ => ?_
  split
  · next stale hfind =>
    simp only [reduceCtorEq, false_iff, not_forall]
    exact ⟨stale, mem_of_find?_eq_some hfind, by simpa using find?_some hfind⟩
  · next hfind => simpa using hfind

lemma handleKbNodeUpdate_eq_ok {doc doc' : NodeLog β} {r : NodeUpdate β} {p : String} (hp : r.principal = some p)
    (hreseal : r.reseal = false) (hrebirth : r.rebirth = false) (h : handleKbNodeUpdate (some doc) r = .ok doc') :
    enforceEpochFence (some doc) r p = .ok () ∧ ∃ u, r.update = .ok u ∧ doc' = doc.absorb u := by
  obtain ⟨-, -, h⟩ := bind_ok_iff.mp h
  obtain ⟨_, hfence, h⟩ := bind_ok_iff.mp h
  obtain ⟨-, -, h⟩ := bind_ok_iff.mp h
  obtain ⟨u, hu, h⟩ := bind_ok_iff.mp h
  refine ⟨?_, u, mapError_ok_iff.mp hu, ?_⟩
  · simpa [fenceGate, hp, hreseal] using hfence
  · simpa [hreseal, hrebirth] using h.symm

end Fence

def afterRequest (doc : NodeLog β) (r : NodeUpdate β) : NodeLog β :=
  match handleKbNodeUpdate (some doc) r with
  | .ok doc' => doc'
  | .error _ => doc

def afterRequests : NodeLog β → List (NodeUpdate β) → NodeLog β
  | doc, [] => doc
  | doc, r :: rs => afterRequests (afterRequest doc r) rs

def accepted : NodeLog β → List (NodeUpdate β) → List (NodeUpdate β)
  | _, [] => []
  | doc, r :: rs =>
    if (handleKbNodeUpdate (some doc) r).isOk then r :: accepted (afterRequest doc r) rs
    else accepted (afterRequest doc r) rs

def NodeUpdate.Authors (r : NodeUpdate β) (o : NodeOp β) : Prop :=
  ∃ p e u, r.principal = some p ∧ r.epoch = .ok e ∧ r.update = .ok u ∧ o ∈ u ∧ o.client = deriveKbClientId p e

structure Fenced (doc : NodeLog β) (rs : List (NodeUpdate β)) : Prop where
  authored : ∀ o ∈ (afterRequests doc rs).integrated, o ∈ doc.integrated ∨ ∃ r ∈ accepted doc rs, r.Authors o
  passes : ∀ (r : NodeUpdate β) (p : String) (e : UInt64) (u : List (NodeOp β)), r.epoch = .ok e → r.update = .ok u →
    (∀ o ∈ u, o.client = deriveKbClientId p e) → enforceEpochFence (some (afterRequests doc rs)) r p = .ok ()

def GapFree : NodeLog β → List (NodeUpdate β) → Prop
  | _, [] => True
  | doc, r :: rs =>
    (r.reseal = false ∧ r.rebirth = false ∧ ∀ u, r.update = .ok u → Complete doc.integrated u) ∧
      GapFree (afterRequest doc r) rs

section Run

variable {doc : NodeLog β} {r : NodeUpdate β} {rs : List (NodeUpdate β)}

lemma fenced_nil (hpending : doc.pending = []) : Fenced doc [] where
  authored o ho := .inl ho
  passes r p e u hepoch hupdate hown := by
    apply enforceEpochFence_eq_ok.mpr
    refine ⟨e, hepoch, u, hupdate, fun a ha => ?_⟩
    obtain ⟨o, ho, rfl⟩ := mem_of_author hpending ha
    exact hown o ho

lemma Fenced.refused {msg : String} (hrefused : handleKbNodeUpdate (some doc) r = .error msg)
    (h : Fenced doc rs) : Fenced doc (r :: rs) := by
  have hsame : afterRequest doc r = doc := by rw [afterRequest, hrefused]
  constructor
  · intro o ho
    rw [afterRequests, hsame] at ho
    simpa [accepted, hrefused, hsame, Except.toBool] using h.authored o ho
  · simpa only [afterRequests, hsame] using h.passes

lemma Fenced.accepted {doc' : NodeLog β} (hok : handleKbNodeUpdate (some doc) r = .ok doc')
    (hauthors : ∀ o ∈ doc'.integrated, o ∈ doc.integrated ∨ r.Authors o) (h : Fenced doc' rs) :
    Fenced doc (r :: rs) := by
  have hafter : afterRequest doc r = doc' := by rw [afterRequest, hok]
  have haccepted : Daemon.accepted doc (r :: rs) = r :: Daemon.accepted doc' rs := by
    rw [Daemon.accepted, hok, hafter]
    rfl
  constructor
  · intro o ho
    rw [afterRequests, hafter] at ho
    rw [haccepted]
    rcases h.authored o ho with hold | ⟨r', hr', hauthor⟩
    · exact (hauthors o hold).imp_right fun hauthor => ⟨r, mem_cons_self, hauthor⟩
    · exact .inr ⟨r', mem_cons_of_mem _ hr', hauthor⟩
  · simpa only [afterRequests, hafter] using h.passes

theorem epoch_fence_admits_authors (doc : NodeLog β) (rs : List (NodeUpdate β))
    (hprincipal : ∀ r ∈ rs, r.principal.isSome) (hpending : doc.pending = []) (hgap : GapFree doc rs) :
    Fenced doc rs := by
  induction rs generalizing doc with
  | nil => exact fenced_nil hpending
  | cons r rs ih =>
    obtain ⟨⟨hreseal, hrebirth, hcomplete⟩, hrest⟩ := hgap
    have hprincipals : ∀ r ∈ rs, r.principal.isSome := fun r' hr' => hprincipal r' (mem_cons_of_mem _ hr')
    obtain ⟨p, hp⟩ := Option.isSome_iff_exists.mp (hprincipal r mem_cons_self)
    cases hhandle : handleKbNodeUpdate (some doc) r with
    | error msg =>
      have hsame : afterRequest doc r = doc := by rw [afterRequest, hhandle]
      rw [hsame] at hrest
      exact (ih doc hprincipals hpending hrest).refused hhandle
    | ok doc' =>
      have hafter : afterRequest doc r = doc' := by rw [afterRequest, hhandle]
      obtain ⟨hfence, u, hu, rfl⟩ := handleKbNodeUpdate_eq_ok hp hreseal hrebirth hhandle
      obtain ⟨e, he, u', hu', hauthors⟩ := enforceEpochFence_eq_ok.mp hfence
      obtain rfl : u' = u := Except.ok.inj (hu'.symm.trans hu)
      rw [hafter] at hrest
      -- nothing waits after a complete update, so that the operations new in the document are its own
      have hdone := ih _ hprincipals ((hcomplete u' hu).pending_absorb hpending) hrest
      refine hdone.accepted hhandle fun o ho => ?_
      by_cases hold : o ∈ doc.integrated
      · exact .inl hold
      · right
        have hclient := hauthors _ (author_of_integrated ho hold)
        obtain ⟨new, heq, hmem⟩ := doc.absorb_grows u'
        rw [heq] at ho
        rcases hmem o ((mem_append.mp ho).resolve_right hold) with hwaited | hcarried
        · simp [hpending] at hwaited
        · exact ⟨p, e, u', hp, he, hu, hcarried, hclient⟩

end Run

def sampleEditOf (principal : String) (u : List (NodeOp String)) : NodeUpdate String where
  kbId := "notes"
  nodeId := "idea"
  principal := some principal
  update := .ok u
  reseal := false
  rebirth := false
  access := .ok ()
  epoch := .ok 0
  binding := .ok ()

def sampleNodeOp (principal : String) (clock : ℕ) (deps : List (UInt64 × ℕ)) (body : String) : NodeOp String :=
  ⟨deriveKbClientId principal 0, clock, deps, body⟩

def sampleNode : NodeLog String := Log.empty.absorb [sampleNodeOp "alice" 0 [] "title"]

theorem edits_of_sample_are_fenced :
    Fenced sampleNode [sampleEditOf "bob" [sampleNodeOp "bob" 0 [(deriveKbClientId "alice" 0, 0)] "tag"]] ∧
      (afterRequests sampleNode
        [sampleEditOf "bob" [sampleNodeOp "bob" 0 [(deriveKbClientId "alice" 0, 0)] "tag"]]).integrated.length = 2 := by
  refine ⟨epoch_fence_admits_authors _ _ (by simp [sampleEditOf]) (by decide +kernel) ?_, by decide +kernel⟩
  refine ⟨⟨rfl, rfl, fun u hu => ?_⟩, trivial⟩
  cases hu
  refine ⟨_, fun o => Iff.rfl, ⟨by simp [sampleNodeOp], fun d hd => .inl ?_⟩, trivial⟩
  rw [mem_singleton.mp hd]
  decide +kernel

def sampleForged : NodeOp String := sampleNodeOp "alice" 2 [] "forged"

def sampleForgery : NodeUpdate String := sampleEditOf "mallory" [sampleForged]

def sampleHonest : NodeUpdate String := sampleEditOf "alice" [sampleNodeOp "alice" 1 [] "body"]

def sampleTagged : NodeLog String := sampleNode.absorb [sampleNodeOp "bob" 0 [] "tag"]

def sampleTrap : NodeUpdate String :=
  sampleEditOf "mallory" [sampleNodeOp "bob" 1 [(deriveKbClientId "alice" 0, 1)] "trap"]

theorem fence_admits_forged_operation :
    (sampleForged ∈ (afterRequests sampleNode [sampleForgery, sampleHonest]).integrated ∧
        sampleForged ∉ sampleNode.integrated ∧ ∀ r ∈ [sampleForgery, sampleHonest], ¬ r.Authors sampleForged) ∧
      (accepted sampleTagged [sampleTrap]).length = 1 ∧
        enforceEpochFence (some sampleTagged) sampleHonest "alice" = .ok () ∧
        enforceEpochFence (some (afterRequests sampleTagged [sampleTrap])) sampleHonest "alice" ≠ .ok () := by
  refine ⟨⟨by decide +kernel, by decide +kernel, ?_⟩, by decide +kernel, by decide +kernel, by decide +kernel⟩
  have hids : deriveKbClientId "alice" 0 ≠ deriveKbClientId "mallory" 0 := by decide +kernel
  have hcarried : sampleForged ∉ [sampleNodeOp "alice" 1 [] "body"] := by decide +kernel
  simp only [forall_mem_cons, not_mem_nil, false_imp_iff, implies_true, and_true]
  constructor
  · rintro ⟨p, e, u, hp, he, -, -, hclient⟩
    cases hp
    cases he
    exact hids hclient
  · rintro ⟨p, e, u, -, -, hu, hmem, -⟩
    cases hu
    exact hcarried hmem

end Mae.Daemon
