import Mae.Sync.DocAddress
import Mae.Sync.Yrs

/-! The documents of the daemon, request by request: what is stored, and which of it is in memory. -/

namespace Mae.Daemon

open Sync Sync.Membership Function Option

structure DocEntry (Y : Yrs) where
  sync : Y.Doc
  connectedClients : ℕ

structure Documents (Y : Yrs) where
  storage : String → Option Y.Doc
  docs : String → Option (DocEntry Y)

structure Env (Y : Yrs) where
  C : Crypto
  authorizedKeys : Option (String → Option String)
  anchor : String → Option Key32
  view : String → MembershipView
  signer : Option Key32
  now : UInt64
  freshEpochToken : UInt64
  pickLru : (String → Option (DocEntry Y)) → Option String

namespace Documents

variable {Y : Yrs}

def hasDoc (s : Documents Y) (name : String) : Bool := (s.docs name).isSome

def hasDurableDoc (s : Documents Y) (name : String) : Bool := s.hasDoc name || (s.storage name).isSome

def put (s : Documents Y) (name : String) (e : DocEntry Y) : Documents Y :=
  { s with docs := Function.update s.docs name (some e) }

def forget (s : Documents Y) (name : String) : Documents Y := { s with docs := Function.update s.docs name none }

def store (s : Documents Y) (name : String) (d : Y.Doc) : Documents Y :=
  { s with storage := Function.update s.storage name (some d) }

variable (env : Env Y)

def makeRoom (s : Documents Y) : Documents Y :=
  match (env.pickLru s.docs).filter fun victim => (s.docs victim).any fun e => e.connectedClients = 0 with
  | some victim => s.forget victim
  | none => s

def getOrCreate (allowed : Bool) (name : String) (s : Documents Y) : Documents Y × Option (DocEntry Y) :=
  match s.docs name with
  | some e => (s, some e)
  | none =>
    let s := s.makeRoom env
    match s.storage name with
    | some d => (s.put name ⟨d, 0⟩, some ⟨d, 0⟩)
    | none =>
      if !allowed && isDurableDoc name then (s, none) else (s.put name ⟨Y.blank, 0⟩, some ⟨Y.blank, 0⟩)

def applyUpdate (name : String) (u : Y.Update) (s : Documents Y) : Documents Y :=
  match (s.store name (Y.apply ((s.storage name).getD Y.blank) u)).getOrCreate env true name with
  | (s, some e) => s.put name { e with sync := Y.apply e.sync u }
  | (s, none) => s

def shareDoc (name : String) (u : Y.Update) (s : Documents Y) : Documents Y :=
  match ((s.forget name).store name (Y.apply Y.blank u)).getOrCreate env true name with
  | (s, some e) => s.put name ⟨Y.apply e.sync u, 1⟩
  | (s, none) => s

def countClients (name : String) (f : ℕ → ℕ) (s : Documents Y) : Documents Y :=
  match s.getOrCreate env false name with
  | (s, some e) => s.put name { e with connectedClients := f e.connectedClients }
  | (s, none) => s

def trackClientConnect (name : String) : Documents Y → Documents Y := countClients env name (· + 1)

def trackClientDisconnect (name : String) : Documents Y → Documents Y := countClients env name (· - 1)

def encodeState (name : String) (s : Documents Y) : Documents Y × Option Y.Update :=
  match s.getOrCreate env false name with
  | (s, some e) => (s, some (Y.encode e.sync))
  | (s, none) => (s, none)

/-- `evict_idle` on one of the documents that have been idle long enough. -/
def evictIdle (name : String) (s : Documents Y) : Documents Y :=
  match s.docs name with
  | some e =>
    if e.connectedClients = 0 then
      if isDurableDoc name then s.forget name
      else { s.forget name with storage := Function.update s.storage name none }
    else s
  | none => s

def restart (s : Documents Y) : Documents Y := { s with docs := fun _ => none }

def loadCollection (kbId : String) (s : Documents Y) : Documents Y × Except String Y.Doc :=
  let name := collectionDocName kbId
  if s.hasDurableDoc name then
    match s.encodeState env name with
    | (s, none) => (s, .error s!"KB '{kbId}' not found: no such document: {name}")
    | (s, some state) =>
      let coll := Y.apply Y.blank state
      match env.authorizedKeys.bind fun keys => (Y.root coll).migrateIfLegacy keys with
      | some ws => (s.applyUpdate env name (Y.record coll ws), .ok (Y.transact coll ws))
      | none => (s, .ok coll)
  else (s, .error s!"KB '{kbId}' not found")

def Coherent (s : Documents Y) : Prop := ∀ name e, s.docs name = some e → e.sync = (s.storage name).getD Y.blank

section Lemmas

variable {env : Env Y} {allowed : Bool} {s s' : Documents Y} {name other kbId : String} {u : Y.Update} {d : Y.Doc}
  {e : DocEntry Y} {f : DocEntry Y → DocEntry Y}

@[simp] lemma storage_put (s : Documents Y) (name : String) (e : DocEntry Y) : (s.put name e).storage = s.storage := rfl

@[simp] lemma storage_forget (s : Documents Y) (name : String) : (s.forget name).storage = s.storage := rfl

@[simp] lemma docs_put (s : Documents Y) (name : String) (e : DocEntry Y) :
    (s.put name e).docs = Function.update s.docs name (some e) := rfl

@[simp] lemma docs_forget (s : Documents Y) (name : String) :
    (s.forget name).docs = Function.update s.docs name none := rfl

lemma makeRoom_cases (env : Env Y) (s : Documents Y) : s.makeRoom env = s ∨
    ∃ victim e, s.docs victim = some e ∧ e.connectedClients = 0 ∧ s.makeRoom env = s.forget victim := by
  rw [makeRoom]
  split
  · next victim hvictim =>
    obtain ⟨e, he, hidle⟩ := any_eq_true .. |>.mp (filter_eq_some_iff.mp hvictim).2
    exact .inr ⟨victim, e, he, of_decide_eq_true hidle, rfl⟩
  · exact .inl rfl

@[simp] lemma storage_makeRoom (env : Env Y) (s : Documents Y) : (s.makeRoom env).storage = s.storage := by
  obtain h | ⟨_, _, -, -, h⟩ := makeRoom_cases env s <;> simp [h]

lemma docs_makeRoom (env : Env Y) (s : Documents Y) (name : String) :
    (s.makeRoom env).docs name = s.docs name ∨ (s.makeRoom env).docs name = none := by
  obtain h | ⟨victim, -, -, -, h⟩ := makeRoom_cases env s
  · exact .inl (by rw [h])
  · by_cases hvictim : name = victim
    · exact .inr (by simp [h, hvictim])
    · exact .inl (by simp [h, hvictim])

/-- The entry that a document gets when it is loaded or created. -/
def opened (s : Documents Y) (name : String) : DocEntry Y := ⟨(s.storage name).getD Y.blank, 0⟩

def MayOpen (allowed : Bool) (s : Documents Y) (name : String) : Prop :=
  (s.storage name).isSome ∨ allowed = true ∨ isDurableDoc name = false

lemma getOrCreate_cases (env : Env Y) (allowed : Bool) (name : String) (s : Documents Y) :
    (∃ e, s.docs name = some e ∧ s.getOrCreate env allowed name = (s, some e)) ∨
      s.docs name = none ∧ s.MayOpen allowed name ∧
        s.getOrCreate env allowed name = ((s.makeRoom env).put name (s.opened name), some (s.opened name)) ∨
      s.docs name = none ∧ ¬ s.MayOpen allowed name ∧ s.getOrCreate env allowed name = (s.makeRoom env, none) := by
  cases hdocs : s.docs name with
  | some e => exact .inl ⟨e, rfl, by rw [getOrCreate, hdocs]⟩
  | none =>
    refine .inr ?_
    simp only [getOrCreate, hdocs, storage_makeRoom, opened, MayOpen]
    cases hd : s.storage name with
    | some d => simp
    | none => cases allowed <;> cases isDurableDoc name <;> simp

@[simp] lemma storage_getOrCreate (env : Env Y) (allowed : Bool) (name : String) (s : Documents Y) :
    (s.getOrCreate env allowed name).1.storage = s.storage := by
  obtain ⟨e, -, h⟩ | ⟨-, -, h⟩ | ⟨-, -, h⟩ := getOrCreate_cases env allowed name s <;> simp [h]

lemma docs_getOrCreate_of_ne (env : Env Y) (allowed : Bool) (hne : other ≠ name) :
    (s.getOrCreate env allowed name).1.docs other = s.docs other ∨
      (s.getOrCreate env allowed name).1.docs other = none := by
  obtain ⟨e, -, h⟩ | ⟨-, -, h⟩ | ⟨-, -, h⟩ := getOrCreate_cases env allowed name s
  · exact .inl (by rw [h])
  · simpa [h, hne] using docs_makeRoom env s other
  · simpa [h] using docs_makeRoom env s other

lemma getOrCreate_ne_none (env : Env Y) (hopen : s.hasDoc name = true ∨ s.MayOpen allowed name) :
    (s.getOrCreate env allowed name).2 ≠ none := by
  obtain ⟨e, -, h⟩ | ⟨-, -, h⟩ | ⟨hnone, hrefused, -⟩ := getOrCreate_cases env allowed name s
  · simp [h]
  · simp [h]
  · exact absurd hopen (by simp [hasDoc, hnone, hrefused])

lemma getOrCreate_allowed (env : Env Y) (name : String) (s : Documents Y) :
    ∃ e, (s.getOrCreate env true name).2 = some e :=
  ne_none_iff_exists'.mp (getOrCreate_ne_none env (.inr (.inr (.inl rfl))))

lemma hasDoc_getOrCreate (he : (s.getOrCreate env allowed name).2 = some e) :
    (s.getOrCreate env allowed name).1.hasDoc name = true := by
  obtain ⟨e, hdoc, h⟩ | ⟨-, -, h⟩ | ⟨-, -, h⟩ := getOrCreate_cases env allowed name s
  · simp [h, hasDoc, hdoc]
  · simp [h, hasDoc]
  · simp [h] at he

lemma Coherent.forget (h : s.Coherent) (name : String) : (s.forget name).Coherent := by
  intro other e he
  by_cases hname : other = name
  · simp [hname] at he
  · rw [docs_forget, update_of_ne hname] at he
    exact h other e he

lemma Coherent.put (h : s.Coherent) (he : e.sync = (s.storage name).getD Y.blank) : (s.put name e).Coherent := by
  intro other e' he'
  by_cases hname : other = name
  · subst hname
    rw [docs_put, update_self] at he'
    rw [← some.inj he', he]
    rfl
  · rw [docs_put, update_of_ne hname] at he'
    exact h other e' he'

lemma Coherent.makeRoom (h : s.Coherent) (env : Env Y) : (s.makeRoom env).Coherent := by
  obtain hsame | ⟨victim, -, -, -, hroom⟩ := makeRoom_cases env s
  · rwa [hsame]
  · rw [hroom]
    exact h.forget victim

lemma Coherent.getOrCreate (h : s.Coherent) (env : Env Y) (allowed : Bool) (name : String) :
    (s.getOrCreate env allowed name).1.Coherent ∧
      ∀ e, (s.getOrCreate env allowed name).2 = some e → e.sync = (s.storage name).getD Y.blank := by
  obtain ⟨e, he, heq⟩ | ⟨-, -, heq⟩ | ⟨-, -, heq⟩ := getOrCreate_cases env allowed name s <;> rw [heq]
  · exact ⟨h, fun e' he' => some.inj he' ▸ h name e he⟩
  · exact ⟨(h.makeRoom env).put (by simp [opened]), fun e he => some.inj he ▸ rfl⟩
  · exact ⟨h.makeRoom env, fun _ he => nomatch he⟩

def onEntry (env : Env Y) (allowed : Bool) (name : String) (f : DocEntry Y → DocEntry Y) (s : Documents Y) : Documents Y :=
  match s.getOrCreate env allowed name with
  | (s, some e) => s.put name (f e)
  | (s, none) => s

section OnEntry

variable (env : Env Y) (allowed : Bool) (name : String) (f : DocEntry Y → DocEntry Y) (u : Y.Update) (g : ℕ → ℕ)
  (s : Documents Y)

lemma onEntry_cases : (∃ e, (s.getOrCreate env allowed name).2 = some e ∧
        s.onEntry env allowed name f = (s.getOrCreate env allowed name).1.put name (f e)) ∨
      (s.getOrCreate env allowed name).2 = none ∧
        s.onEntry env allowed name f = (s.getOrCreate env allowed name).1 := by
  rw [onEntry]
  generalize s.getOrCreate env allowed name = r
  obtain ⟨s', _ | e⟩ := r
  · exact .inr ⟨rfl, rfl⟩
  · exact .inl ⟨e, rfl, rfl⟩

lemma storage_onEntry : (s.onEntry env allowed name f).storage = s.storage := by
  obtain ⟨e, -, h⟩ | ⟨-, h⟩ := onEntry_cases env allowed name f s <;> simp [h]

lemma hasDoc_onEntry :
    (s.onEntry env allowed name f).hasDoc other = (s.getOrCreate env allowed name).1.hasDoc other := by
  obtain ⟨e, he, h⟩ | ⟨-, h⟩ := onEntry_cases env allowed name f s
  · by_cases hname : other = name
    · subst hname
      rw [h, hasDoc_getOrCreate he]
      simp [hasDoc]
    · simp [h, hasDoc, hname]
  · rw [h]

lemma applyUpdate_eq : s.applyUpdate env name u =
    (s.store name (Y.apply ((s.storage name).getD Y.blank) u)).onEntry env true name
      fun e => { e with sync := Y.apply e.sync u } := rfl

lemma shareDoc_eq : s.shareDoc env name u =
    ((s.forget name).store name (Y.apply Y.blank u)).onEntry env true name fun e => ⟨Y.apply e.sync u, 1⟩ := rfl

lemma countClients_eq : s.countClients env name g =
    s.onEntry env false name fun e => { e with connectedClients := g e.connectedClients } := rfl

lemma storage_applyUpdate : (s.applyUpdate env name u).storage =
      Function.update s.storage name (some (Y.apply ((s.storage name).getD Y.blank) u)) := storage_onEntry ..

lemma storage_shareDoc :
    (s.shareDoc env name u).storage = Function.update s.storage name (some (Y.apply Y.blank u)) := storage_onEntry ..

@[simp] lemma storage_countClients : (s.countClients env name g).storage = s.storage := storage_onEntry ..

end OnEntry

lemma docs_onEntry_of_ne (env : Env Y) (allowed : Bool) (f : DocEntry Y → DocEntry Y) (hne : other ≠ name) :
    (s.onEntry env allowed name f).docs other = s.docs other ∨ (s.onEntry env allowed name f).docs other = none := by
  obtain ⟨e, -, h⟩ | ⟨-, h⟩ := onEntry_cases env allowed name f s <;>
    simpa [h, hne] using docs_getOrCreate_of_ne env allowed hne

lemma Coherent.rewrite (h : s.Coherent) (hstorage : s'.storage = Function.update s.storage name (some d))
    (hdocs : s'.docs = s.docs) (hentry : ∀ e, s.docs name = some e → (f e).sync = d) (hopened : (f ⟨d, 0⟩).sync = d)
    (env : Env Y) : (s'.onEntry env true name f).Coherent := by
  intro other e' he'
  rw [storage_onEntry, hstorage]
  by_cases hname : other = name
  · subst hname
    rw [update_self]
    obtain ⟨e, he, heq⟩ | ⟨hnone, -⟩ := onEntry_cases env true other f s'
    · rw [heq, docs_put, update_self] at he'
      obtain rfl := some.inj he'
      obtain ⟨e'', hold, hget⟩ | ⟨-, -, hget⟩ | ⟨-, -, hget⟩ := getOrCreate_cases env true other s'
      · rw [hget] at he
        obtain rfl := some.inj he
        exact hentry e'' (hdocs ▸ hold)
      · rw [hget, opened, hstorage, update_self] at he
        cases he
        exact hopened
      · simp [hget] at he
    · exact absurd hnone (getOrCreate_ne_none env (.inr (.inr (.inl rfl))))
  · rw [update_of_ne hname]
    rcases docs_onEntry_of_ne env true f hname with hsame | hnone
    · exact h other e' (hdocs ▸ hsame ▸ he')
    · simp [hnone] at he'

lemma Coherent.applyUpdate (h : s.Coherent) (env : Env Y) (name : String) (u : Y.Update) :
    (s.applyUpdate env name u).Coherent := by
  apply h.rewrite
  · rfl
  · rfl
  · intro e he
    rw [h name e he]
  · exact Y.apply_apply _ _

lemma Coherent.shareDoc (h : s.Coherent) (env : Env Y) (name : String) (u : Y.Update) :
    (s.shareDoc env name u).Coherent := by
  apply (h.forget name).rewrite
  · rfl
  · rfl
  · simp
  · exact Y.apply_apply _ _

lemma Coherent.countClients (h : s.Coherent) (env : Env Y) (name : String) (f : ℕ → ℕ) :
    (s.countClients env name f).Coherent := by
  have hget := h.getOrCreate env false name
  rw [countClients_eq]
  obtain ⟨e, he, heq⟩ | ⟨-, heq⟩ := onEntry_cases env false name _ s <;> rw [heq]
  · exact hget.1.put (by simpa using hget.2 e he)
  · exact hget.1

lemma encodeState_eq (env : Env Y) (name : String) (s : Documents Y) : s.encodeState env name =
    ((s.getOrCreate env false name).1, (s.getOrCreate env false name).2.map fun e => Y.encode e.sync) := by
  rw [encodeState]
  generalize s.getOrCreate env false name = r
  obtain ⟨s', _ | e⟩ := r <;> rfl

lemma Coherent.encodeState (h : s.Coherent) (env : Env Y) (name : String) : (s.encodeState env name).1.Coherent := by
  rw [encodeState_eq]
  exact (h.getOrCreate env false name).1

lemma encodeState_stored (env : Env Y) (h : s.Coherent) (hd : s.storage name = some d) :
    (s.encodeState env name).2 = some (Y.encode d) := by
  have hopen : s.MayOpen false name := .inl (by simp [hd])
  obtain ⟨e, he⟩ := ne_none_iff_exists'.mp (getOrCreate_ne_none env (.inr hopen))
  have hsync := (h.getOrCreate env false name).2 e he
  rw [hd] at hsync
  rw [encodeState_eq, he, map_some, hsync, getD_some]

@[simp] lemma storage_encodeState (env : Env Y) (name : String) (s : Documents Y) :
    (s.encodeState env name).1.storage = s.storage := by
  rw [encodeState_eq, storage_getOrCreate]

def Current (env : Env Y) (d : Y.Doc) : Prop := env.authorizedKeys = none ∨ 2 ≤ (Y.root d).schemaVersion

lemma loadCollection_current (h : s.Coherent) (hd : s.storage (collectionDocName kbId) = some d)
    (hcurrent : Current env d) : s.loadCollection env kbId = ((s.encodeState env (collectionDocName kbId)).1, .ok d) := by
  have hdurable : s.hasDurableDoc (collectionDocName kbId) = true := by simp [hasDurableDoc, hd]
  have hstate := encodeState_stored env h hd
  have hmigrate : (env.authorizedKeys.bind fun keys => (Y.root d).migrateIfLegacy keys) = none := by
    rcases hcurrent with hnone | hschema
    · simp [hnone]
    · rw [bind_eq_none_iff]
      intro keys _
      rw [Root.migrateIfLegacy, if_pos hschema]
  simp only [loadCollection, hdurable, if_true]
  generalize s.encodeState env (collectionDocName kbId) = r at *
  obtain ⟨s', state⟩ := r
  subst hstate
  simp only [Y.apply_encode, hmigrate]

lemma loadCollection_stored (h : s.Coherent) (hd : s.storage (collectionDocName kbId) = some d)
    (hcurrent : Current env d) :
    (s.loadCollection env kbId).2 = .ok d ∧ (s.loadCollection env kbId).1.storage = s.storage ∧
      (s.loadCollection env kbId).1.Coherent := by
  rw [loadCollection_current h hd hcurrent]
  exact ⟨rfl, storage_encodeState .., h.encodeState env _⟩

/-- A load reads the document and may migrate it. -/
lemma loadCollection_induct {P : Documents Y → Prop} (env : Env Y) (kbId : String) (hs : P s)
    (hstate : P (s.encodeState env (collectionDocName kbId)).1)
    (hmigrate : ∀ s u, P s → P (s.applyUpdate env (collectionDocName kbId) u)) : P (s.loadCollection env kbId).1 := by
  simp only [loadCollection]
  split
  · generalize s.encodeState env (collectionDocName kbId) = r at hstate
    obtain ⟨s', _ | state⟩ := r
    · exact hstate
    · dsimp only
      split
      · exact hmigrate _ _ hstate
      · exact hstate
  · exact hs

end Lemmas

end Documents

end Mae.Daemon
