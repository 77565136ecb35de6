import Mathlib.Data.Finset.Basic

/-! The delivery of events to the clients of the broadcaster. -/

namespace Mae.Mcp

open Finset Function List Option

/-- `data` stands for the fields that decide nothing here. -/
inductive EditorEvent (β : Type) where
  | bufferEdited (data : β) | cursorMoved (data : β) | diagnosticsUpdated (data : β) | modeChanged (data : β)
  | bufferOpened (data : β) | bufferClosed (data : β) | peerJoined (data : β) | peerLeft (data : β)
  | syncUpdate (bufferName : String) (data : β)
  | sharerLeft (doc : String) (data : β)
  | saveCommitted (doc : String) (data : β)
  | awarenessUpdate (docId : String) (data : β)
  deriving DecidableEq

variable {β : Type}

namespace EditorEvent

def docId : EditorEvent β → Option String
  | syncUpdate doc _ | sharerLeft doc _ | saveCommitted doc _ | awarenessUpdate doc _ => some doc
  | _ => none

def eventType : EditorEvent β → String
  | bufferEdited _ => "buffer_edit"
  | cursorMoved _ => "cursor_move"
  | diagnosticsUpdated _ => "diagnostics"
  | modeChanged _ => "mode_change"
  | bufferOpened _ => "buffer_open"
  | bufferClosed _ => "buffer_close"
  | syncUpdate _ _ => "sync_update"
  | peerJoined _ => "peer_joined"
  | peerLeft _ => "peer_left"
  | sharerLeft _ _ => "sharer_left"
  | saveCommitted _ _ => "save_committed"
  | awarenessUpdate _ _ => "awareness_update"

end EditorEvent

structure ClientEntry where
  eventSubs : List String
  docSubs : Finset String

def ClientEntry.shouldDeliver (entry : ClientEntry) (event : EditorEvent β) : Bool :=
  (entry.eventSubs.any fun s => s == event.eventType || s == "*") &&
    (decide (entry.docSubs = ∅) || event.docId.all fun doc => decide (doc ∈ entry.docSubs))

/-- What `try_send` on the channel of a session says. -/
inductive Sent where
  | ok | full | closed
  deriving DecidableEq

abbrev EventBroadcaster := UInt64 → Option ClientEntry

inductive Call (β : Type) where
  | subscribe (sessionId : UInt64) (subscriptions : List String)
  | unsubscribe (sessionId : UInt64)
  | updateSubscriptions (sessionId : UInt64) (subscriptions : List String)
  | addEventSub (sessionId : UInt64) (eventType : String)
  | subscribeDoc (sessionId : UInt64) (docId : String)
  | unsubscribeDoc (sessionId : UInt64) (docId : String)
  | broadcast (event : EditorEvent β) (sent : UInt64 → Sent)
  | broadcastExcept (event : EditorEvent β) (excludeSession : UInt64) (sent : UInt64 → Sent)

def Call.offer : Call β → Option (EditorEvent β × Option UInt64 × (UInt64 → Sent))
  | .broadcast event sent => some (event, none, sent)
  | .broadcastExcept event exclude sent => some (event, some exclude, sent)
  | _ => none

namespace EventBroadcaster

variable (b : EventBroadcaster)

def modify (id : UInt64) (f : ClientEntry → ClientEntry) : EventBroadcaster := Function.update b id ((b id).map f)

def addEventSub (id : UInt64) (eventType : String) : EventBroadcaster :=
  b.modify id fun entry =>
    if entry.eventSubs.any (· == eventType) then entry else { entry with eventSubs := entry.eventSubs ++ [eventType] }

/-- Whether the event is offered to the channel of the session. -/
def offers (event : EditorEvent β) (exclude : Option UInt64) (id : UInt64) : Bool :=
  decide (exclude ≠ some id) && (b id).any (ClientEntry.shouldDeliver · event)

/-- The clients whose channels turn out to be closed are removed. -/
def deliver (event : EditorEvent β) (exclude : Option UInt64) (sent : UInt64 → Sent) : EventBroadcaster := fun id =>
  if b.offers event exclude id && sent id = .closed then none else b id

def step : Call β → EventBroadcaster
  | .subscribe id subscriptions => Function.update b id (some ⟨subscriptions, ∅⟩)
  | .unsubscribe id => Function.update b id none
  | .updateSubscriptions id subscriptions => b.modify id fun entry => { entry with eventSubs := subscriptions }
  | .addEventSub id eventType => b.addEventSub id eventType
  | .subscribeDoc id docId => b.modify id fun entry => { entry with docSubs := insert docId entry.docSubs }
  | .unsubscribeDoc id docId => b.modify id fun entry => { entry with docSubs := entry.docSubs.erase docId }
  | .broadcast event sent => b.deliver event none sent
  | .broadcastExcept event exclude sent => b.deliver event (some exclude) sent

def run (cs : List (Call β)) : EventBroadcaster := cs.foldl step b

/-- What a call puts into the queue of the session. -/
def enqueued (id : UInt64) (c : Call β) : List (EditorEvent β) :=
  match c.offer with
  | some (event, exclude, sent) => if b.offers event exclude id && sent id = .ok then [event] else []
  | none => []

def queued (id : UInt64) (b : EventBroadcaster) : List (Call β) → List (EditorEvent β)
  | [] => []
  | c :: cs => b.enqueued id c ++ queued id (b.step c) cs

/-- No call takes the last document from the session. -/
def Scoped (s : UInt64) (b : EventBroadcaster) : List (Call β) → Prop
  | [] => True
  | .unsubscribeDoc id docId :: cs => (id = s → ∀ entry ∈ b s, (entry.docSubs.erase docId).Nonempty) ∧
      Scoped s (b.step (.unsubscribeDoc id docId : Call β)) cs
  | c :: cs => Scoped s (b.step c) cs

end EventBroadcaster

/-- The channel of the session takes what it is offered. -/
def Call.Takes (s : UInt64) (c : Call β) : Prop := ∀ offer ∈ c.offer, offer.2.2 s = .ok

namespace EventBroadcaster

/-- The entries that `R` relates have the same event types and related documents. -/
def Alike (R : Finset String → Finset String → Prop) (o o' : Option ClientEntry) : Prop :=
  ∀ entry ∈ o, ∃ entry' ∈ o', entry'.eventSubs = entry.eventSubs ∧ R entry.docSubs entry'.docSubs

variable {b b' : EventBroadcaster} {s id : UInt64} {c : Call β} {cs pre post : List (Call β)} {d : String}
  {R : Finset String → Finset String → Prop}

lemma modify_apply (f : ClientEntry → ClientEntry) : (b.modify id f) s = if s = id then (b s).map f else b s := by
  rw [modify, update_apply]
  split
  · next h => rw [h]
  · rfl

lemma queued_append : queued id b (pre ++ post) = queued id b pre ++ queued id (b.run pre) post := by
  induction pre generalizing b with
  | nil => rfl
  | cons c pre ih =>
    rw [cons_append, queued, queued, ih, append_assoc]
    rfl

lemma step_congr (h : b id = b' id) (c : Call β) : (b.step c) id = (b'.step c) id := by
  cases c <;> simp [step, addEventSub, modify_apply, deliver, offers, update_apply, h]

/-- A session depends on its own entry only. -/
lemma queued_congr (h : b id = b' id) (cs : List (Call β)) : queued id b cs = queued id b' cs := by
  induction cs generalizing b b' with
  | nil => rfl
  | cons c cs ih =>
    simp only [queued, enqueued, offers, h, ih (step_congr h c)]
    rfl

lemma Scoped.of_cons (h : Scoped s b (c :: cs)) : Scoped s (b.step c) cs := by
  cases c with
  | unsubscribeDoc id docId => exact h.2
  | _ => exact h

lemma Scoped.of_append (h : Scoped s b (pre ++ post)) : Scoped s (b.run pre) post := by
  induction pre generalizing b with
  | nil => exact h
  | cons c pre ih => exact ih h.of_cons

lemma Alike.modify (h : Alike R (b s) (b' s)) {f : ClientEntry → ClientEntry}
    (hf : id = s → ∀ entry ∈ b s, ∀ entry', entry'.eventSubs = entry.eventSubs → R entry.docSubs entry'.docSubs →
      (f entry').eventSubs = (f entry).eventSubs ∧ R (f entry).docSubs (f entry').docSubs) :
    Alike R ((b.modify id f) s) ((b'.modify id f) s) := by
  rw [modify_apply, modify_apply]
  split
  · next hs =>
    intro entry hentry
    obtain ⟨old, hold, rfl⟩ := Option.mem_map.mp hentry
    obtain ⟨old', hold', hsubs, hdocs⟩ := h old hold
    exact ⟨f old', Option.mem_map_of_mem f hold', hf hs.symm old hold old' hsubs hdocs⟩
  · exact h

variable {event : EditorEvent β}

lemma Alike.deliver (h : Alike R (b s) (b' s)) {exclude : Option UInt64} {sent : UInt64 → Sent}
    (htakes : sent s = .ok ∨ b' = b) : Alike R ((b.deliver event exclude sent) s) ((b'.deliver event exclude sent) s) := by
  rcases htakes with hok | rfl
  · simpa [EventBroadcaster.deliver, hok] using h
  · rw [EventBroadcaster.deliver]
    split
    · rintro entry ⟨⟩
    · exact h

/-- The step lemma for both parts: what is asked of `R` is asked at the calls that come up. -/
lemma Alike.step (h : Alike R (b s) (b' s)) (hscoped : Scoped s b (c :: cs)) (htakes : c.Takes s ∨ b' = b)
    (hfresh : (∃ subscriptions, c = .subscribe s subscriptions) → R ∅ ∅)
    (hinsert : ∀ doc X Y, c = .subscribeDoc s doc → R X Y → R (insert doc X) (insert doc Y))
    (herase : ∀ doc X Y, (X.erase doc).Nonempty → R X Y → R (X.erase doc) (Y.erase doc)) :
    Alike R ((b.step c) s) ((b'.step c) s) := by
  cases c with
  | subscribe id subscriptions =>
    simp only [EventBroadcaster.step, update_apply]
    split
    · next hs =>
      rintro entry ⟨⟩
      exact ⟨_, rfl, rfl, hfresh ⟨subscriptions, hs ▸ rfl⟩⟩
    · exact h
  | unsubscribe id =>
    simp only [EventBroadcaster.step, update_apply]
    split
    · rintro entry ⟨⟩
    · exact h
  | updateSubscriptions id subscriptions => exact h.modify fun _ _ _ _ _ hdocs => ⟨rfl, hdocs⟩
  | addEventSub id eventType =>
    refine h.modify fun _ entry _ entry' hsubs hdocs => ?_
    rw [hsubs]
    split
    · exact ⟨hsubs, hdocs⟩
    · exact ⟨rfl, hdocs⟩
  | subscribeDoc id docId =>
    exact h.modify fun hs _ _ _ hsubs hdocs => ⟨hsubs, hinsert docId _ _ (hs ▸ rfl) hdocs⟩
  | unsubscribeDoc id docId =>
    exact h.modify fun hs entry hentry _ hsubs hdocs => ⟨hsubs, herase docId _ _ (hscoped.1 hs entry hentry) hdocs⟩
  | broadcast event sent => exact h.deliver (htakes.imp_left fun h => h _ rfl)
  | broadcastExcept event exclude sent => exact h.deliver (htakes.imp_left fun h => h _ rfl)

lemma mem_enqueued (h : event ∈ b.enqueued s c) : ∃ entry ∈ b s, entry.shouldDeliver event = true := by
  rw [enqueued] at h
  split at h
  · split at h
    · next hoffers =>
      obtain rfl := List.mem_singleton.mp h
      rw [offers, Bool.and_eq_true, Bool.and_eq_true] at hoffers
      exact (Option.any_eq_true _ _).mp hoffers.1.2
    · cases h
  · cases h

/-- Part one keeps `d` out of documents that never run out. -/
lemma Alike.hides (h : Alike (fun X _ => d ∉ X ∧ X.Nonempty) (b s) (b s)) (hscoped : Scoped s b cs)
    (hdoc : .subscribeDoc s d ∉ cs) (hfresh : ∀ subscriptions, .subscribe s subscriptions ∉ cs) (hevent : event ∈ queued s b cs) : event.docId ≠ some d := by
  induction cs generalizing b with
  | nil => cases hevent
  | cons c cs ih =>
    rcases mem_append.mp hevent with hnow | hlater
    · obtain ⟨entry, hentry, hdeliver⟩ := mem_enqueued hnow
      obtain ⟨-, -, -, hd, hdocs⟩ := h entry hentry
      intro heq
      simp [ClientEntry.shouldDeliver, heq, hd, hdocs.ne_empty] at hdeliver
    · simp only [List.mem_cons, not_or] at hdoc hfresh
      refine ih (h.step hscoped (.inr rfl) ?_ ?_ ?_) hscoped.of_cons hdoc.2 (fun subs => (hfresh subs).2) hlater
      · rintro ⟨subs, rfl⟩
        exact absurd rfl (hfresh subs).1
      · rintro doc X - rfl ⟨hd, -⟩
        refine ⟨?_, insert_nonempty doc X⟩
        rw [mem_insert, not_or]
        exact ⟨fun heq => hdoc.1 (heq ▸ rfl), hd⟩
      · exact fun doc X _ hne hX => ⟨fun hd => hX.1 (Finset.mem_of_mem_erase hd), hne⟩

def Wider (X Y : Finset String) : Prop := X ⊆ Y ∧ (X = ∅ → Y = ∅)

section

variable (h : Alike Wider (b s) (b' s))
include h

lemma Alike.offers {event : EditorEvent β} {exclude : Option UInt64} (hoffers : b.offers event exclude s = true) :
    b'.offers event exclude s = true := by
  rw [EventBroadcaster.offers, Bool.and_eq_true] at hoffers ⊢
  refine ⟨hoffers.1, ?_⟩
  obtain ⟨entry, hentry, hdeliver⟩ := (Option.any_eq_true _ _).mp hoffers.2
  obtain ⟨entry', hentry', hsubs, hdocs, hempty⟩ := h entry hentry
  refine (Option.any_eq_true _ _).mpr ⟨entry', hentry', ?_⟩
  simp only [ClientEntry.shouldDeliver, Bool.and_eq_true, Bool.or_eq_true, decide_eq_true_eq] at hdeliver ⊢
  refine ⟨hsubs ▸ hdeliver.1, hdeliver.2.imp hempty fun hall => ?_⟩
  cases hdoc : event.docId with
  | none => rfl
  | some doc =>
    rw [hdoc] at hall
    simpa using hdocs (by simpa using hall)

lemma Alike.enqueued (c : Call β) : (b.enqueued s c).Sublist (b'.enqueued s c) := by
  rw [EventBroadcaster.enqueued, EventBroadcaster.enqueued]
  split
  · next event exclude sent _ =>
    split
    · next hsent =>
      rw [Bool.and_eq_true] at hsent
      rw [h.offers hsent.1, hsent.2]
      exact .refl _
    · exact nil_sublist _
  · exact .refl _

lemma Alike.queued (hscoped : Scoped s b cs) (htakes : ∀ c ∈ cs, c.Takes s) :
    (queued s b cs).Sublist (queued s b' cs) := by
  induction cs generalizing b b' with
  | nil => exact .slnil
  | cons c cs ih =>
    obtain ⟨hc, hcs⟩ := List.forall_mem_cons.mp htakes
    refine (h.enqueued c).append (ih (h.step hscoped (.inl hc) ?_ ?_ ?_) hscoped.of_cons hcs)
    · exact fun _ => ⟨Finset.Subset.refl ∅, id⟩
    · exact fun doc X Y _ hXY => ⟨insert_subset_insert doc hXY.1, fun he => absurd he (insert_ne_empty doc X)⟩
    · exact fun doc X Y hne hXY => ⟨erase_subset_erase doc hXY.1, fun he => absurd he hne.ne_empty⟩

end

theorem unsubscribing_never_widens (b : EventBroadcaster) (pre post : List (Call β)) (s : UInt64) (d : String)
    (hscoped : Scoped s b (pre ++ .unsubscribeDoc s d :: post)) :
    (.subscribeDoc s d ∉ post → (∀ subscriptions, .subscribe s subscriptions ∉ post) →
      ∀ event ∈ queued s (b.run (pre ++ [.unsubscribeDoc s d])) post, event.docId ≠ some d) ∧
    ((∀ c ∈ post, c.Takes s) →
      ∀ id, (queued id b (pre ++ .unsubscribeDoc s d :: post)).Sublist (queued id b (pre ++ post))) := by
  have hpost := hscoped.of_append
  have hstep : ((b.run pre).step (.unsubscribeDoc s d : Call β)) s =
      (b.run pre s).map fun entry => { entry with docSubs := entry.docSubs.erase d } := by
    rw [step, modify_apply, if_pos rfl]
  refine ⟨fun hdoc hfresh event hevent => ?_, fun htakes id => ?_⟩
  · rw [run, foldl_append] at hevent
    refine Alike.hides ?_ hpost.2 hdoc hfresh hevent
    intro entry hentry
    obtain ⟨old, hold, rfl⟩ := Option.mem_map.mp (hstep ▸ hentry)
    exact ⟨_, hentry, rfl, notMem_erase _ _, hpost.1 rfl old hold⟩
  · rw [queued_append, queued_append]
    refine (append_sublist_append_left _).mpr ?_
    change (queued id ((b.run pre).step (.unsubscribeDoc s d)) post).Sublist _
    by_cases hid : id = s
    · subst hid
      refine Alike.queued ?_ hpost.2 htakes
      intro entry hentry
      obtain ⟨old, hold, rfl⟩ := Option.mem_map.mp (hstep ▸ hentry)
      exact ⟨old, hold, rfl, Finset.erase_subset d _, fun he => absurd he (hpost.1 rfl old hold).ne_empty⟩
    · have hsame : ((b.run pre).step (.unsubscribeDoc s d : Call β)) id = b.run pre id := by
        rw [step, modify_apply, if_neg hid]
      rw [queued_congr hsame]

def sampleEdit (doc : String) : EditorEvent Unit := .syncUpdate doc ()

def sampleCalls : List (Call Unit) := [.subscribe 1 ["*"], .subscribeDoc 1 "a"]

def sampleBroadcast (doc : String) : Call Unit := .broadcast (sampleEdit doc) fun _ => .ok

/-- Without its last document the client is sent the events of all documents, this one included. -/
theorem last_unsubscribe_widens :
    queued 1 (run (fun _ => none) (sampleCalls ++ [.unsubscribeDoc 1 "a"])) [sampleBroadcast "a", sampleBroadcast "b"] =
      [sampleEdit "a", sampleEdit "b"] ∧
    queued 1 (run (fun _ => none) sampleCalls) [sampleBroadcast "b"] = [] := by
  decide

theorem unsubscribe_with_document_left :
    let pre := sampleCalls ++ [.subscribeDoc 1 "b"]
    let post := [sampleBroadcast "a", sampleBroadcast "b"]
    let b := run (fun _ => none) (pre ++ [.unsubscribeDoc 1 "a"])
    queued 1 b post = [sampleEdit "b"] ∧ (∀ event ∈ queued 1 b post, event.docId ≠ some "a") ∧
      (queued 1 (fun _ => none) (pre ++ .unsubscribeDoc 1 "a" :: post)).Sublist
        (queued 1 (fun _ => none) (pre ++ post)) := by
  intro pre post b
  have hscoped : Scoped 1 (fun _ => none) (pre ++ .unsubscribeDoc 1 "a" :: post) := by
    refine ⟨fun _ entry h => ?_, trivial⟩
    cases h
    exact ⟨"b", by decide⟩
  have h := unsubscribing_never_widens (fun _ => none) pre post 1 "a" hscoped
  refine ⟨by decide, h.1 (by simp [post, sampleBroadcast]) (by simp [post, sampleBroadcast]), h.2 ?_ 1⟩
  simp [post, sampleBroadcast, Call.Takes, Call.offer]

end EventBroadcaster

end Mae.Mcp
