import Mae.Daemon.Reading

/-! Documents in the state that a running daemon keeps them in, and the steps of the handlers that leave the storage as
it is. -/

namespace Mae.Daemon

open Library Sync Sync.Membership

variable {Y : Yrs}

namespace Documents

structure Sound (s : Documents Y) : Prop where
  coherent : s.Coherent
  stored : ∀ kbId, kbId ≠ "" → s.hasDoc (collectionDocName kbId) = true → (s.storage (collectionDocName kbId)).isSome

structure Settled (env : Env Y) (s : Documents Y) : Prop extends s.Sound where
  current : ∀ kbId d, kbId ≠ "" → s.storage (collectionDocName kbId) = some d → Current env d

/-- The decision of `kb_access` on what is stored. -/
def decision (env : Env Y) (storage : String → Option Y.Doc) (kbId principal : String) (op : KbOp)
    (transport : Transport) : Except String AccessDecision :=
  match storage (collectionDocName kbId) with
  | some d => .ok (accessOn env kbId (Y.root d) principal op transport)
  | none => .error s!"KB '{kbId}' not found"

section

variable {env env' : Env Y} {s s' : Documents Y} {name kbId : String}

lemma isDurableDoc_collectionDocName (h : kbId ≠ "") : isDurableDoc (collectionDocName kbId) = true := by
  rw [isDurableDoc, DocAddress.parse_collectionDocName kbId h]
  rfl

section

variable (h : s.Sound)
include h

lemma Sound.stored_of (hkb : kbId ≠ "")
    (hdocs : s'.docs (collectionDocName kbId) = s.docs (collectionDocName kbId) ∨ s'.docs (collectionDocName kbId) =
      none)
    (hdoc : s'.hasDoc (collectionDocName kbId) = true) :
    (s.storage (collectionDocName kbId)).isSome := by
  rw [hasDoc] at hdoc
  rcases hdocs with hsame | hnone
  · apply h.stored kbId hkb
    rw [hasDoc, ← hsame]
    exact hdoc
  · simp [hnone] at hdoc

lemma Sound.getOrCreate (env : Env Y) (allowed : Bool) (name : String)
    (hname : allowed = false ∨ ∀ kbId, name ≠ collectionDocName kbId) :
    (s.getOrCreate env allowed name).1.Sound := by
  refine ⟨(h.coherent.getOrCreate env allowed name).1, fun kbId hkb hdoc => ?_⟩
  rw [storage_getOrCreate]
  by_cases heq : collectionDocName kbId = name
  · have hallowed : allowed = false := hname.resolve_right fun hne => hne kbId heq.symm
    subst heq hallowed
    obtain ⟨e, he, -⟩ | ⟨-, hopen, -⟩ | ⟨-, -, hget⟩ := getOrCreate_cases env false (collectionDocName kbId) s
    · exact h.stored kbId hkb (by simp [hasDoc, he])
    · exact hopen.resolve_right (by simp [isDurableDoc_collectionDocName hkb])
    · -- a collection that is not stored is not created
      rw [hget] at hdoc
      exact h.stored_of hkb (docs_makeRoom env s _) hdoc
  · exact h.stored_of hkb (docs_getOrCreate_of_ne env allowed heq) hdoc

lemma Sound.countClients (env : Env Y) (name : String) (f : ℕ → ℕ) : (s.countClients env name f).Sound := by
  refine ⟨h.coherent.countClients env name f, fun kbId hkb hdoc => ?_⟩
  have hget := (h.getOrCreate env false name (.inl rfl)).stored kbId hkb
  rw [countClients_eq, hasDoc_onEntry] at hdoc
  rw [storage_countClients, ← storage_getOrCreate env false name]
  exact hget hdoc

lemma Sound.encodeState (env : Env Y) (name : String) : (s.encodeState env name).1.Sound := by
  rw [encodeState_eq]
  exact h.getOrCreate env false name (.inl rfl)

lemma Sound.rewrite {d : Y.Doc} (hcoherent : s'.Coherent)
    (hstorage : s'.storage = Function.update s.storage name (some d))
    (hdocs : ∀ other ≠ name, s'.docs other = s.docs other ∨ s'.docs other = none) :
    s'.Sound := by
  refine ⟨hcoherent, fun kbId hkb hdoc => ?_⟩
  rw [hstorage]
  by_cases heq : collectionDocName kbId = name
  · simp [heq]
  · rw [Function.update_of_ne heq]
    exact h.stored_of hkb (hdocs _ heq) hdoc

lemma Sound.applyUpdate (env : Env Y) (name : String) (u : Y.Update) : (s.applyUpdate env name u).Sound :=
  h.rewrite (h.coherent.applyUpdate env name u) (storage_applyUpdate env name u s) fun _ hne =>
    docs_onEntry_of_ne env true _ hne

lemma Sound.shareDoc (env : Env Y) (name : String) (u : Y.Update) : (s.shareDoc env name u).Sound :=
  h.rewrite (h.coherent.shareDoc env name u) (storage_shareDoc env name u s) fun _ hne => by
    simpa [shareDoc_eq, store, hne] using docs_onEntry_of_ne (s := (s.forget name).store name _) env true _ hne

end

lemma Settled.of_storage (h : s.Settled env) (hsound : s'.Sound) (hstorage : s'.storage = s.storage) :
    s'.Settled env where
  toSound := hsound
  current kbId d hkb hd := h.current kbId d hkb (hstorage ▸ hd)

lemma Settled.loadCollection (h : s.Settled env) (hkb : kbId ≠ "") :
    (s.loadCollection env kbId).1.Sound ∧ (s.loadCollection env kbId).1.storage = s.storage ∧
      (s.loadCollection env kbId).2 =
        (s.storage (collectionDocName kbId)).elim (.error s!"KB '{kbId}' not found") .ok := by
  cases hd : s.storage (collectionDocName kbId) with
  | none =>
    have hdoc : s.hasDoc (collectionDocName kbId) = false := by
      by_contra hdoc
      have := h.stored kbId hkb (by simpa using hdoc)
      simp [hd] at this
    rw [Documents.loadCollection]
    simp only [hasDurableDoc, hdoc, hd]
    exact ⟨h.toSound, rfl, rfl⟩
  | some d =>
    rw [loadCollection_current h.coherent hd (h.current kbId d hkb hd)]
    exact ⟨h.toSound.encodeState env _, storage_encodeState .., rfl⟩

lemma Settled.kbAccess (h : s.Settled env) (hkb : kbId ≠ "") (principal : String) (op : KbOp) (transport : Transport) :
    (kbAccess env kbId (some principal) op transport s).1.Sound ∧
      (kbAccess env kbId (some principal) op transport s).1.storage = s.storage ∧
      (kbAccess env kbId (some principal) op transport s).2 = decision env s.storage kbId principal op transport := by
  obtain ⟨hsound, hstorage, hload⟩ := h.loadCollection hkb
  rw [Daemon.kbAccess, decision]
  generalize s.loadCollection env kbId = r at *
  obtain ⟨s', r⟩ := r
  subst hload
  cases s.storage (collectionDocName kbId) with
  | none => exact ⟨hsound, hstorage, rfl⟩
  | some d => exact ⟨hsound, hstorage, rfl⟩

end

end Documents

lemma ends_onDocuments {P : Server Y → Prop} {s : Server Y} {ε α : Type} {f : Documents Y → Documents Y × Except ε α}
    (hs : P { s with documents := (f s.documents).1 }) :
    (onDocuments f).Ends s (fun a s' => P s' ∧ (f s.documents).2 = .ok a) P := by
  rw [Handler.Ends, onDocuments]
  generalize (f s.documents).2 = r
  cases r with
  | error e => exact hs
  | ok a => exact ⟨hs, rfl⟩

structure Steady (h : Host Y) (I : Server Y → Prop) : Prop where
  settled : ∀ s, I s → s.documents.Settled h.toEnv
  quiet : ∀ s docs, I s → docs.Sound → docs.storage = s.documents.storage → I { s with documents := docs }
  books : ∀ (s : Server Y) (id : ℕ) (f : Client → Client), (∀ c, (f c).toPeer = c.toPeer ∧
    (f c).eventSubs = c.eventSubs ∧ (f c).docSubs = c.docSubs) → I s → I (s.onClient id f)
  metas : ∀ (s : Server Y) (kbMetas : List String), (∀ kbId ∈ kbMetas, kbId ∈ s.kbMetas ∨ kbId ≠ "") → I s →
    I { s with kbMetas }
  tells : ∀ (s : Server Y) (event : EditorEvent Y) (recipient : Client → Bool), I s → I (s.enqueue event recipient)

namespace Steady

open Handler

variable {h : Host Y} {I : Server Y → Prop} {s : Server Y} {who : Peer} {name kbId principal : String}

section

variable (hI : Steady h I)
include hI

lemma onStorage (P : (String → Option Y.Doc) → Prop) : Steady h fun s => I s ∧ P s.documents.storage where
  settled s hs := hI.settled s hs.1
  quiet s docs hs hsound hstorage := ⟨hI.quiet s docs hs.1 hsound hstorage, hstorage ▸ hs.2⟩
  books s id f hf hs := ⟨hI.books s id f hf hs.1, hs.2⟩
  metas s kbMetas hm hs := ⟨hI.metas s kbMetas hm hs.1, hs.2⟩
  tells s event recipient hs := ⟨hI.tells s event recipient hs.1, hs.2⟩

lemma still (storage : String → Option Y.Doc) : Steady h fun s => I s ∧ s.documents.storage = storage :=
  hI.onStorage (· = storage)

lemma ends_onDocuments (hs : I s) {ε α : Type} {f : Documents Y → Documents Y × Except ε α}
    (hsound : (f s.documents).1.Sound) (hstorage : (f s.documents).1.storage = s.documents.storage) :
    (onDocuments f).Ends s (fun a s' => I s' ∧ (f s.documents).2 = .ok a) I :=
  Daemon.ends_onDocuments (hI.quiet s _ hs hsound hstorage)

lemma reading : Reading h (· ≠ "") (Preserves I) where
  named _ hkb := hkb
  state s name hs := hI.quiet s _ hs ((hI.settled s hs).toSound.encodeState h.toEnv name)
    (Documents.storage_encodeState h.toEnv name s.documents)
  collection s kbId hkb hs := by
    obtain ⟨hsound, hstorage, -⟩ := (hI.settled s hs).loadCollection hkb
    exact hI.quiet s _ hs hsound hstorage
  tells s event recipient hs := hI.tells s event recipient hs

lemma ends_stateOf (hs : I s) (name : String) : (stateOf h name).Keeps s I :=
  (hI.reading.moves_stateOf name).keeps hs

lemma ends_loadedCollection (hs : I s) (hkb : kbId ≠ "") :
    (loadedCollection h kbId).Ends s (fun coll s' => I s' ∧ s.documents.storage (collectionDocName kbId) = some coll)
      I := by
  obtain ⟨hsound, hstorage, hload⟩ := (hI.settled s hs).loadCollection hkb
  refine (hI.ends_onDocuments hs hsound hstorage).mono (fun coll s' hcoll => ⟨hcoll.1, ?_⟩) fun _ h => h
  have hok := hload.symm.trans hcoll.2
  cases hd : s.documents.storage (collectionDocName kbId) with
  | none => simp [hd] at hok
  | some d =>
    rw [hd] at hok
    exact congrArg some (Except.ok.inj hok)

lemma ends_access (hs : I s) (hkb : kbId ≠ "") (hp : who.principal = some principal) (op : KbOp) :
    (access h who kbId op).Ends s
      (fun d s' => I s' ∧ Documents.decision h.toEnv s.documents.storage kbId principal op who.transport = .ok d)
      I := by
  obtain ⟨hsound, hstorage, hdecision⟩ := (hI.settled s hs).kbAccess hkb principal op who.transport
  rw [access, hp]
  refine (hI.ends_onDocuments hs hsound hstorage).mono (fun d s' hd => ⟨hd.1, ?_⟩) fun _ h => h
  exact hdecision.symm.trans hd.2

lemma ends_requireAccess (hs : I s) (hkb : kbId ≠ "") (hp : who.principal = some principal) (op : KbOp) (other : String) :
    (requireAccess h who kbId op other).Ends s
      (fun _ s' => I s' ∧ Documents.decision h.toEnv s.documents.storage kbId principal op who.transport = .ok .allow)
      I := by
  refine (hI.ends_access hs hkb hp op).mapError.bind fun d s' hd => ?_
  cases d with
  | allow => exact hd
  | deny message => exact hd.1
  | allowAutoJoin => exact hd.1
  | pending => exact hd.1

lemma ends_denyCollectionSmuggling (hs : I s) (hp : who.principal = some principal) (name : String) :
    (denyCollectionSmuggling h who name).Ends s
      (fun _ s' => I s' ∧ ∀ kbId, DocAddress.parse name = some (.kbCollection kbId) → Documents.decision h.toEnv
        s.documents.storage kbId principal .manage who.transport = .ok .allow)
      I := by
  rw [denyCollectionSmuggling]
  split
  · next kbId hname =>
    refine (hI.ends_access hs (kbOf_ne_empty (kbOf_of_collection hname)) hp .manage).mapError.bind fun d s' hd => ?_
    refine ends_check (fun hallow => ⟨hd.1, fun kbId' hname' => ?_⟩) hd.1
    cases hname.symm.trans hname'
    rw [hd.2, of_decide_eq_true hallow]
  · next hne =>
    apply ends_answer
    exact ⟨hs, fun kbId hname => absurd hname (hne kbId)⟩

end

lemma ends_bytesParam_bind {α : Type} {f : Bytes → ServerHandler Y α} {Q : α → Server Y → Prop} {E : Server Y → Prop}
    {params : Json} {key what : String} (hE : E s) (hf : ∀ bytes, (f bytes).Ends s Q E) :
    (bytesParam h params key what >>= f).Ends s Q E := by
  apply Ends.bind
  · exact ends_ofOption_bind hE fun _ _ => ends_ofExcept (fun _ _ => rfl) hE
  · rintro bytes _ rfl
    exact hf bytes

variable (hI : Steady h I) (hs : I s)
include hI hs

lemma ends_insertSessionDoc (name : String) : (insertSessionDoc who name).Keeps s I :=
  ends_change (hI.books s _ _ (fun _ => ⟨rfl, rfl, rfl⟩) hs)

lemma ends_removeSessionDoc (name : String) : (removeSessionDoc who name).Keeps s I :=
  ends_change (hI.books s _ _ (fun _ => ⟨rfl, rfl, rfl⟩) hs)

lemma ends_joinDoc (name : String) {Q : Unit → Server Y → Prop}
    (hsubscribe : ∀ s', I s' → (subscribeDoc who name).Ends s' Q I) :
    (joinDoc h who name).Ends s Q I := by
  apply (hI.ends_insertSessionDoc hs name).bind
  intro _ s1 hs1
  refine Keeps.bind (ends_change ?_) fun _ s2 hs2 => hsubscribe s2 hs2
  exact hI.quiet s1 _ hs1 ((hI.settled s1 hs1).toSound.countClients h.toEnv name _)
    (Documents.storage_countClients h.toEnv name _ s1.documents)

lemma ends_firstInteraction (name : String) (hsubscribe : ∀ s', I s' → (subscribeDoc who name).Keeps s' I) :
    (firstInteraction h who name).Keeps s I :=
  ends_look_bind (ends_when (fun _ => hI.ends_joinDoc hs name hsubscribe) fun _ => hs)

lemma ends_broadcastExcept (event : EditorEvent Y) : (broadcastExcept who event).Keeps s I :=
  ends_change (hI.tells s event _ hs)

end Steady

end Mae.Daemon
