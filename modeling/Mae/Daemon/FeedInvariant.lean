import Mae.Daemon.Routing
import Mae.Sync.CollectionReaders

/-! The invariant that keeps the live feed of a KB within those who may read it, and the steps that keep the invariant. -/

namespace Mae.Daemon

open Library Handler Sync Sync.Membership Function List

variable {Y : Yrs}

section

variable {env : Env Y} {kbId principal : String} {root : Root} {op : KbOp} {transport : Transport}
  (h : env.anchor kbId = none)
include h

lemma memberRole_of_unanchored : memberRole env kbId root principal = (root.roleOf principal, .full) := by
  have hforce : anchorInForce env kbId root = none := by simp [anchorInForce, h]
  rw [memberRole, hforce]

lemma reads_of_allow (hallow : accessOn env kbId root principal op transport = .allow) :
    root.Reads principal transport := by
  rw [accessOn.eq_def, memberRole_of_unanchored h] at hallow
  cases hrole : root.roleOf principal with
  | none =>
    simp only [hrole] at hallow
    split_ifs at hallow
    split at hallow <;> cases hallow
  | some role =>
    simp only [hrole] at hallow
    split_ifs at hallow with hclosed
    refine ⟨role, hrole, ?_⟩
    simpa [Decidable.or_iff_not_imp_left] using hclosed

lemma allow_of_reads (hreads : root.Reads principal transport) :
    accessOn env kbId root principal .read transport = .allow := by
  obtain ⟨role, hrole, hopen⟩ := hreads
  have hclosed : ¬ (some role ≠ some .owner ∧ root.transportPolicy.allows transport = false) := by
    rcases hopen with rfl | hallows
    · simp
    · simp [hallows]
  rw [accessOn.eq_def, memberRole_of_unanchored h]
  simp only [hrole, if_neg hclosed]
  cases role <;> rfl

lemma of_autoJoin (hjoin : accessOn env kbId root principal op transport = .allowAutoJoin) :
    root.roleOf principal = none ∧ root.transportPolicy.allows transport = true := by
  rw [accessOn.eq_def, memberRole_of_unanchored h] at hjoin
  cases hrole : root.roleOf principal with
  | none =>
    simp only [hrole] at hjoin
    split_ifs at hjoin with hclosed
    exact ⟨rfl, by simpa using hclosed⟩
  | some role =>
    simp only [hrole] at hjoin
    split_ifs at hjoin

lemma accessOn_read_ne_autoJoin : accessOn env kbId root principal .read transport ≠ .allowAutoJoin := by
  intro hjoin
  obtain ⟨hrole, hallows⟩ := of_autoJoin h hjoin
  rw [accessOn.eq_def, memberRole_of_unanchored h] at hjoin
  simp [hrole, hallows] at hjoin

end

def Reads (storage : String → Option Y.Doc) (kbId : String) (who : Peer) : Prop :=
  ∃ d principal, storage (collectionDocName kbId) = some d ∧ who.principal = some principal ∧
    (Y.root d).Reads principal who.transport

def Client.Listens (c : Client) : Prop := "sync_update" ∈ c.eventSubs ∨ "*" ∈ c.eventSubs

def Delivery.Allowed (h : Host Y) (d : Delivery Y) : Prop :=
  ∀ name u header, d.event = .syncUpdate name u header → ∀ kbId, kbOf name = some kbId →
    (kbAccess h.toEnv kbId d.client.principal .read d.client.transport d.documents).2 = .ok .allow

structure Feeding (h : Host Y) (callers : List Peer) (old : List (Delivery Y)) (s : Server Y) : Prop where
  sound : s.documents.Sound
  current : ∀ kbId d, kbId ≠ "" → s.documents.storage (collectionDocName kbId) = some d →
    2 ≤ (Y.root d).schemaVersion
  metas : ∀ kbId ∈ s.kbMetas, kbId ≠ ""
  sessions : s.clients.map Client.toPeer = callers
  readable : ∀ c ∈ s.clients, ∀ name ∈ c.docSubs, ∀ kbId, kbOf name = some kbId →
    Reads s.documents.storage kbId c.toPeer
  bounded : ∀ c ∈ s.clients, c.Listens → c.docSubs ≠ []
  queue : ∃ new, s.queued = old ++ new ∧ ∀ d ∈ new, d.Allowed h

lemma Server.mem_onClient {s : Server Y} {id : ℕ} {f : Client → Client} {c' : Client}
    (h : c' ∈ (s.onClient id f).clients) : ∃ c ∈ s.clients, c' = if c.id = id then f c else c := by
  obtain ⟨c, hc, rfl⟩ := mem_map.mp h
  exact ⟨c, hc, rfl⟩

namespace Feeding

variable {h : Host Y} {callers : List Peer} {old : List (Delivery Y)} {s : Server Y} {who : Peer}
  {kbId principal name : String}

section

variable (hs : Feeding h callers old s)
include hs

lemma settled (env : Env Y) : s.documents.Settled env :=
  ⟨hs.sound, fun kbId d hkb hd => .inr (hs.current kbId d hkb hd)⟩

lemma mem_callers {c : Client} (hc : c ∈ s.clients) : c.toPeer ∈ callers := by
  rw [← hs.sessions]
  exact mem_map_of_mem hc

lemma of_rewrite {docs : Documents Y} {d : Y.Doc} (hsound : docs.Sound)
    (hstorage : docs.storage = Function.update s.documents.storage (collectionDocName kbId) (some d))
    (hcurrent : 2 ≤ (Y.root d).schemaVersion)
    (hread : ∀ c ∈ s.clients, ∀ name ∈ c.docSubs, kbOf name = some kbId → Reads docs.storage kbId c.toPeer) :
    Feeding h callers old { s with documents := docs } where
  sound := hsound
  current kb d' hkb hd := by
    rw [hstorage] at hd
    by_cases heq : collectionDocName kb = collectionDocName kbId
    · rw [heq, update_self] at hd
      exact Option.some.inj hd ▸ hcurrent
    · rw [update_of_ne heq] at hd
      exact hs.current kb d' hkb hd
  metas := hs.metas
  sessions := hs.sessions
  readable c hc name hname kb hkb := by
    by_cases heq : kb = kbId
    · exact heq ▸ hread c hc name hname (heq ▸ hkb)
    · obtain ⟨d', principal, hd, hreads⟩ := hs.readable c hc name hname kb hkb
      refine ⟨d', principal, ?_, hreads⟩
      rw [hstorage, update_of_ne fun hname => heq (collectionDocName_injective hname)]
      exact hd
  bounded := hs.bounded
  queue := hs.queue

lemma of_collections {docs : Documents Y} (hsound : docs.Sound)
    (hstorage : ∀ kbId, kbId ≠ "" → docs.storage (collectionDocName kbId) = s.documents.storage (collectionDocName
      kbId)) :
    Feeding h callers old { s with documents := docs } where
  sound := hsound
  current kbId d hkb hd := hs.current kbId d hkb ((hstorage kbId hkb).symm.trans hd)
  metas := hs.metas
  sessions := hs.sessions
  readable c hc name hname kbId hkb := by
    obtain ⟨d, principal, hd, hreads⟩ := hs.readable c hc name hname kbId hkb
    exact ⟨d, principal, (hstorage kbId (kbOf_ne_empty hkb)).trans hd, hreads⟩
  bounded := hs.bounded
  queue := hs.queue

lemma onClient (id : ℕ) {f : Client → Client} (hcaller : ∀ c, (f c).toPeer = c.toPeer)
    (hread : ∀ c ∈ s.clients, c.id = id → ∀ name ∈ (f c).docSubs, ∀ kbId, kbOf name = some kbId → Reads
      s.documents.storage kbId c.toPeer)
    (hbounded : ∀ c ∈ s.clients, c.id = id → (f c).Listens → (f c).docSubs ≠ []) :
    Feeding h callers old (s.onClient id f) where
  sound := hs.sound
  current := hs.current
  metas := hs.metas
  sessions := by
    rw [← hs.sessions, Server.onClient, map_map]
    apply map_congr_left
    intro c _
    rw [comp_apply]
    split_ifs
    · exact hcaller c
    · rfl
  readable c' hc' := by
    obtain ⟨c, hc, rfl⟩ := Server.mem_onClient hc'
    split_ifs with hid
    · rw [hcaller]
      exact hread c hc hid
    · exact hs.readable c hc
  bounded c' hc' := by
    obtain ⟨c, hc, rfl⟩ := Server.mem_onClient hc'
    split_ifs with hid
    · exact hbounded c hc hid
    · exact hs.bounded c hc
  queue := hs.queue

lemma subscribed_of_shouldDeliver {c : Client} (hc : c ∈ s.clients) {u : Y.Update} {header : Option ContentParams}
    (hdeliver : shouldDeliver c (.syncUpdate name u header) = true) :
    name ∈ c.docSubs := by
  rw [shouldDeliver, Bool.and_eq_true, any_eq_true, Bool.or_eq_true] at hdeliver
  obtain ⟨⟨event, hevent, hkind⟩, hdocs⟩ := hdeliver
  rw [Bool.or_eq_true, decide_eq_true_eq, decide_eq_true_eq] at hkind
  have hlistens : c.Listens := by
    rcases hkind with hkind | hkind
    · subst hkind
      exact .inl hevent
    · subst hkind
      exact .inr hevent
  rcases hdocs with hempty | hcontains
  · exact absurd (List.isEmpty_iff.mp hempty) (hs.bounded c hc hlistens)
  · simpa [EditorEvent.docId] using hcontains

end

lemma access_of_reads (hs : s.documents.Settled h.toEnv) (hanchor : h.anchor kbId = none) (hkb : kbId ≠ "")
    (hreads : Reads s.documents.storage kbId who) :
    (kbAccess h.toEnv kbId who.principal .read who.transport s.documents).2 = .ok .allow := by
  obtain ⟨d, principal, hd, hp, hreads⟩ := hreads
  rw [hp, (hs.kbAccess hkb principal .read who.transport).2.2, Documents.decision, hd]
  exact congrArg Except.ok (allow_of_reads hanchor hreads)

lemma enqueue (hs : Feeding h callers old s) (hanchor : ∀ kbId, h.anchor kbId = none) (event : EditorEvent Y)
    (recipient : Client → Bool) : Feeding h callers old (s.enqueue event recipient) where
  sound := hs.sound
  current := hs.current
  metas := hs.metas
  sessions := hs.sessions
  readable := hs.readable
  bounded := hs.bounded
  queue := by
    obtain ⟨new, hqueued, hnew⟩ := hs.queue
    refine ⟨_, by rw [Server.enqueue, hqueued, append_assoc], fun d hd => ?_⟩
    rcases mem_append.mp hd with hd | hd
    · exact hnew d hd
    · obtain ⟨c, hc, rfl⟩ := mem_map.mp hd
      obtain ⟨hmem, hdeliver⟩ := mem_filter.mp hc
      intro name u header hevent kbId hkb
      obtain rfl : event = .syncUpdate name u header := hevent
      have hname := hs.subscribed_of_shouldDeliver hmem (Bool.and_eq_true_iff.mp hdeliver).2
      exact access_of_reads (hs.settled h.toEnv) (hanchor kbId) (kbOf_ne_empty hkb)
        (hs.readable c hmem name hname kbId hkb)

lemma steady (hanchor : ∀ kbId, h.anchor kbId = none) : Steady h (Feeding h callers old) where
  settled s hs := hs.settled h.toEnv
  quiet s docs hs hsound hstorage := hs.of_collections hsound fun _ _ => congrFun hstorage _
  books s id f hf hs := by
    apply hs.onClient id (fun c => (hf c).1)
    · intro c hc _ name hname
      rw [(hf c).2.2] at hname
      exact hs.readable c hc name hname
    · intro c hc _ hlistens
      rw [(hf c).2.2]
      apply hs.bounded c hc
      rw [Client.Listens, (hf c).2.1] at hlistens
      exact hlistens
  metas s kbMetas hm hs := { hs with metas := fun kbId hkb => (hm kbId hkb).elim (hs.metas kbId) id }
  tells s event recipient hs := hs.enqueue hanchor event recipient

variable (hs : Feeding h callers old s)
include hs

lemma subscribe (hwho : ∀ c ∈ callers, c.id = who.id → c = who)
    (hread : ∀ kbId, kbOf name = some kbId → Reads s.documents.storage kbId who) :
    Feeding h callers old (s.onClient who.id fun c => { c with docSubs := c.docSubs.insert name }) := by
  refine hs.onClient who.id (fun _ => rfl) ?_ ?_
  · intro c hc hid name' hname' kbId hkb
    rcases mem_insert_iff.mp hname' with rfl | hold
    · rw [hwho c.toPeer (hs.mem_callers hc) hid]
      exact hread kbId hkb
    · exact hs.readable c hc name' hold kbId hkb
  · intro c _ _ _
    exact ne_nil_of_mem mem_insert_self

lemma listen {f : Client → Client} (hf : ∀ c, (f c).toPeer = c.toPeer ∧ (f c).docSubs = c.docSubs)
    (hsubscribed : ∀ c ∈ s.clients, c.id = who.id → c.docSubs ≠ []) :
    Feeding h callers old (s.onClient who.id f) := by
  apply hs.onClient who.id fun c => (hf c).1
  · intro c hc _ name hname
    rw [(hf c).2] at hname
    exact hs.readable c hc name hname
  · intro c hc hid _
    rw [(hf c).2]
    exact hsubscribed c hc hid

lemma unsubscribe (hleft : ∀ c ∈ s.clients, c.id = who.id → c.Listens → ∃ other ∈ c.docSubs, other ≠ name) :
    Feeding h callers old (s.onClient who.id fun c => { c with docSubs := c.docSubs.filter (· ≠ name) }) := by
  refine hs.onClient who.id (fun _ => rfl) ?_ ?_
  · intro c hc _ name' hname'
    exact hs.readable c hc name' (mem_filter.mp hname').1
  · intro c hc hid hlistens
    obtain ⟨other, hother, hne⟩ := hleft c hc hid hlistens
    exact ne_nil_of_mem (mem_filter.mpr ⟨hother, by simpa using hne⟩)

end Feeding

end Mae.Daemon
