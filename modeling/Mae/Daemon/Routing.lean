import Mae.Daemon.Mediation

/-! How a session sorts its messages by their text, and the dispatcher for those that are not document requests. -/

namespace Mae.Daemon

open Library Handler Sync List Option Json JsonRpcRequest Documents

variable {Y : Yrs} (h : Host Y) (who : Peer) (msg : String)

def contains (part : String) : Bool := decide (part.toList <:+: msg.toList)

/-- What `is_doc_method` looks for. -/
def docMarkers : List String :=
  ["\"sync/state_vector\"", "\"sync/update\"", "\"sync/full_state\"", "\"sync/diff\"", "\"sync/resync\"",
    "\"sync/awareness\"", "\"docs/list\"", "\"docs/content\"", "\"docs/stats\"", "\"docs/save_intent\"",
    "\"docs/save_committed\"", "\"docs/delete\"", "\"docs/metadata\"", "\"sync/share\"", "\"$/debug\"", "\"kb/"]

def isDocMethod : Bool := docMarkers.any (contains msg)

def isNotification : Bool := contains msg "\"method\"" && !contains msg "\"id\""

/-- Of the notifications only `sync/awareness` has an effect. -/
def handleDocNotificationInner (who : Peer) (msg : String) : ServerHandler Y Unit :=
  match parse msg with
  | none => .answer ()
  | some val =>
    if (val.field "method").asStr = some "sync/awareness" then do
      let _ ← handleSyncAwareness who (val.field "params")
    else .answer ()

def handleSyncTool (tool : String) (arguments : Json) : Handler (Server Y) String (Reply Y) :=
  let name := docParam arguments
  if tool = "__mcp_sync_enable" then .answer [("sync_enabled", .flag true)]
  else if tool = "__mcp_sync_state_vector" then do
    let state ← stateOf h name
    return [("doc", .text name), ("sv", .sv state)]
  else if tool = "__mcp_sync_update" then do
    let bytes ← .ofExcept ((h.base64 ((arguments.field "update").asStr.getD "")).mapError fun e => s!"invalid base64: {e}")
    let u ← applyBytes h name bytes
    .change (Server.enqueue (.syncUpdate name u none) fun _ => true)
    return [("doc", .text name)]
  else if tool = "__mcp_sync_full_state" then do
    let state ← stateOf h name
    return [("doc", .text name), ("state", .state state)]
  else .fail s!"unknown sync tool: {tool}"

def syncToolMethods : List String := ["sync/enable", "sync/state_vector", "sync/update", "sync/full_state"]

def syncToolName (method : String) : String :=
  "__mcp_" ++ String.ofList (method.toList.map fun c => if c = '/' then '_' else c)

def toolCall (request : JsonRpcRequest) : Option (String × Json) :=
  if request.method ∈ syncToolMethods then some (syncToolName request.method, request.params)
  else if request.method = "tools/call" then
    some ((request.params.field "name").asStr.getD "", (request.params.get? "arguments").getD (.obj []))
  else none

def subscribeTypes (params : Json) : ServerHandler Y Unit :=
  match (params.field "types").asArray with
  | none => .answer ()
  | some types => .change (Server.onClient who.id fun c =>
      let subs := (types.filterMap asStr).foldl (fun subs t => subs.insert t) c.subscriptions
      { c with subscriptions := subs, eventSubs := subs })

def sessionMethods : List String :=
  ["initialize", "notifications/initialized", "$/ping", "$/health", "$/resync", "shutdown", "tools/list"]

def serveRequest (request : JsonRpcRequest) : ServerHandler Y (Reply Y) :=
  match toolCall request with
  | some (tool, arguments) =>
    if request.method = "tools/call" then do
      match ← (handleSyncTool h tool arguments).attempt with
      | .ok reply => return reply ++ [("isError", .flag false)]
      | .error e => return [("text", .text e), ("isError", .flag true)]
    else (handleSyncTool h tool arguments).mapError internalError
  | none =>
    if request.method = "notifications/subscribe" then do
      subscribeTypes who request.params
      return []
    else if request.method ∈ sessionMethods then .answer []
    else .fail ⟨.methodNotFound, s!"Unknown method: {request.method}"⟩

/-- `mae_mcp::handle_request`. -/
def handleRequest (h : Host Y) (who : Peer) (msg : String) : ServerHandler Y (Reply Y) := do
  let request ← .ofOption (ofText msg) (parseError "Invalid JSON")
  serveRequest h who request

def handleMessage : ServerHandler Y (Option (Reply Y)) :=
  if isDocMethod msg && isNotification msg then do
    handleDocNotificationInner who msg
    return none
  else if isDocMethod msg then do
    let reply ← handleDocRequestInner h who msg
    return some reply
  else do
    let reply ← handleRequest h who msg
    return some reply

section Markers

variable {msg M : String} {ms : List (String × Json)}

lemma contains_of_occurs {part : String} (h : part.toList <:+: msg.toList) : contains msg part = true := by
  simpa [contains] using h

lemma marked_of_parse (h : (Method.parse M).isSome) : ∃ marker ∈ docMarkers, marker.toList <+: quoted M := by
  obtain ⟨m, hm⟩ := isSome_iff_exists.mp h
  obtain ⟨⟨text, m'⟩, hfind, -⟩ := map_eq_some_iff.mp hm
  obtain rfl : text = M := by simpa using find?_some hfind
  have hall : (Method.table.all fun entry => docMarkers.any fun marker =>
      marker.toList.isPrefixOf (quoted entry.1)) = true := by decide +kernel
  obtain ⟨marker, hmarker, hbegins⟩ :=
    List.any_eq_true.mp (List.all_eq_true.mp hall _ (mem_of_find?_eq_some hfind))
  exact ⟨marker, hmarker, isPrefixOf_iff_prefix.mp hbegins⟩

lemma plain_of_parse (h : (Method.parse M).isSome) : Plain M := by
  obtain ⟨m, hm⟩ := isSome_iff_exists.mp h
  obtain ⟨⟨text, m'⟩, hfind, -⟩ := map_eq_some_iff.mp hm
  obtain rfl : text = M := by simpa using find?_some hfind
  have hall : (Method.table.all fun entry => entry.1.toList.all fun c => c ∉ controls) = true := by decide +kernel
  have hchars := List.all_eq_true.mp hall _ (mem_of_find?_eq_some hfind)
  exact fun c hc => of_decide_eq_true (List.all_eq_true.mp hchars c hc)

lemma mem_of_get? {key : String} {v : Json} (h : (Json.obj ms).get? key = some v) : (key, v) ∈ ms := by
  obtain ⟨⟨key', v'⟩, hfind, rfl⟩ := map_eq_some_iff.mp h
  obtain rfl : key' = key := by simpa using find?_some hfind
  exact mem_reverse.mp (mem_of_find?_eq_some hfind)

variable (hliteral : Literal msg.toList) (hparse : parse msg = some (.obj ms))
include hliteral hparse

lemma isDocMethod_of_method (hmethod : (Json.obj ms).get? "method" = some (.str M)) (hM : (Method.parse M).isSome) :
    isDocMethod msg = true := by
  obtain ⟨marker, hmarker, hbegins⟩ := marked_of_parse hM
  have hquoted := (quoted_occurs_of_parse hparse hliteral _ (mem_of_get? hmethod)).2 M rfl (plain_of_parse hM)
  exact List.any_eq_true.mpr ⟨marker, hmarker, contains_of_occurs (hbegins.isInfix.trans hquoted)⟩

lemma not_isNotification_of_id {id : Json} (hid : (Json.obj ms).get? "id" = some id) : isNotification msg = false := by
  have hquoted : quoted "id" <:+: msg.toList :=
    (quoted_occurs_of_parse hparse hliteral _ (mem_of_get? hid)).1 (by simp [Plain, controls])
  have hcontains : contains msg "\"id\"" = true := contains_of_occurs hquoted
  simp [isNotification, hcontains]

end Markers

def docTools : List String := ["__mcp_sync_state_vector", "__mcp_sync_update", "__mcp_sync_full_state"]

def SparesKbs (request : JsonRpcRequest) : Prop :=
  ∀ tool arguments, toolCall request = some (tool, arguments) → tool ∈ docTools → kbOf (docParam arguments) = none

def SameOutsideKbs (s s' : Server Y) : Prop :=
  ∀ name, kbOf name = none → s.documents.docs name = s'.documents.docs name ∧
    s.documents.storage name = s'.documents.storage name

section Tools

variable {h : Host Y} {s s' s₀ : Server Y} {who : Peer}

def KeepsKbs (before : Documents Y) (s : Server Y) : Prop :=
  s.documents.Coherent ∧ ∀ name, (kbOf name).isSome → s.documents.storage name = before.storage name

variable {before : Documents Y} {name : String} {request : JsonRpcRequest}

section

variable (hs : KeepsKbs before s)
include hs

lemma KeepsKbs.stateAt (hbefore : before.Coherent) (hname : (kbOf name).isSome) :
    s.documents.stateAt name = before.stateAt name := by
  rw [hs.1.stateAt, hbefore.stateAt, hs.2 name hname]

lemma KeepsKbs.ends_stateOf (name : String) : (stateOf h name).Keeps s (KeepsKbs before) := by
  refine (ends_onDocuments ⟨hs.1.encodeState h.toEnv name, fun other hother => ?_⟩).mono
    (fun _ _ h => h.1) fun _ h => h
  exact (congrFun (storage_encodeState h.toEnv name s.documents) other).trans (hs.2 other hother)

lemma KeepsKbs.ends_applyBytes (hname : kbOf name = none) (bytes : Membership.Bytes) :
    (applyBytes h name bytes).Keeps s (KeepsKbs before) := by
  rw [applyBytes]
  split
  · exact ends_fail hs
  · next u _ =>
    refine ⟨hs.1.applyUpdate h.toEnv name u, fun other hother => ?_⟩
    have hne : other ≠ name := by
      rintro rfl
      simp [hname] at hother
    rw [storage_applyUpdate, Function.update_of_ne hne]
    exact hs.2 other hother

lemma KeepsKbs.ends_handleSyncTool (tool : String) {arguments : Json}
    (hspares : tool ∈ docTools → kbOf (docParam arguments) = none) :
    (handleSyncTool h tool arguments).Keeps s (KeepsKbs before) := by
  rw [handleSyncTool]
  split_ifs with _ _ hupdate
  · exact ends_answer hs
  · exact (hs.ends_stateOf _).reply
  · have hname := hspares (hupdate ▸ by decide)
    refine ends_ofExcept_bind hs fun bytes _ => (hs.ends_applyBytes hname bytes).bind fun u s1 hs1 => ?_
    exact Keeps.bind (ends_change hs1) fun _ _ hs2 => ends_pure hs2
  · exact (hs.ends_stateOf _).reply
  · exact ends_fail hs

end

lemma keeps_serveRequest {I : Server Y → Prop} (hs : I s)
    (htool : ∀ tool arguments, toolCall request = some (tool, arguments) → (handleSyncTool h tool arguments).Keeps s I)
    (hsubscribe : request.method = "notifications/subscribe" → (subscribeTypes who request.params).Keeps s I) :
    (serveRequest h who request).Keeps s I := by
  rw [serveRequest]
  split
  · next tool arguments hcall =>
    split_ifs
    · refine (htool tool arguments hcall).attempt.bind fun r s1 hs1 => ?_
      cases r with
      | ok reply => exact ends_pure hs1
      | error e => exact ends_pure hs1
    · exact (htool tool arguments hcall).mapError
  · split_ifs with hmethod
    · exact (hsubscribe hmethod).reply
    · exact ends_answer hs
    · exact ends_fail hs

lemma keeps_subscribeTypes {I : Server Y → Prop} (hs : I s) {params : Json} (hlisten : ∀ f : Client → Client,
    (∀ c, (f c).toPeer = c.toPeer ∧ (f c).docSubs = c.docSubs) → I (s.onClient who.id f)) :
    (subscribeTypes who params).Keeps s I := by
  rw [subscribeTypes]
  split
  · exact ends_answer hs
  · exact ends_change (hlisten _ fun _ => ⟨rfl, rfl⟩)

lemma KeepsKbs.ends_serveRequest (hs : KeepsKbs before s) (hspares : SparesKbs request) :
    (serveRequest h who request).Keeps s (KeepsKbs before) :=
  keeps_serveRequest hs (fun tool arguments hcall => hs.ends_handleSyncTool tool (hspares tool arguments hcall))
    fun _ => keeps_subscribeTypes hs fun _ _ => hs

lemma encodeState_congr {env : Env Y} {docs docs' : Documents Y} (hdocs : docs.docs name = docs'.docs name)
    (hstorage : docs.storage name = docs'.storage name) :
    (docs.encodeState env name).2 = (docs'.encodeState env name).2 := by
  have hentry : (docs.getOrCreate env false name).2 = (docs'.getOrCreate env false name).2 := by
    simp only [getOrCreate, hdocs, storage_makeRoom, hstorage]
    cases docs'.docs name with
    | some e => rfl
    | none =>
      cases docs'.storage name with
      | some d => rfl
      | none =>
        dsimp only
        split <;> rfl
  simp only [encodeState]
  generalize docs.getOrCreate env false name = r at hentry
  generalize docs'.getOrCreate env false name = r' at hentry
  obtain ⟨d, e⟩ := r
  obtain ⟨d', e'⟩ := r'
  obtain rfl : e = e' := hentry
  cases e with
  | none => rfl
  | some e => rfl

lemma reply_handleSyncTool (hsame : SameOutsideKbs s s') (tool : String) {arguments : Json}
    (hspares : tool ∈ docTools → kbOf (docParam arguments) = none) :
    (handleSyncTool h tool arguments s).2 = (handleSyncTool h tool arguments s').2 := by
  have hstate : tool ∈ docTools → (stateOf h (docParam arguments) s).2 = (stateOf h (docParam arguments) s').2 := by
    intro htool
    obtain ⟨hdocs, hstorage⟩ := hsame _ (hspares htool)
    simp only [stateOf, onDocuments, encodeState_congr hdocs hstorage]
  rw [handleSyncTool]
  split_ifs with _ hvector _ hfull
  · rfl
  · exact snd_bind_congr (hstate (hvector ▸ by decide)) fun _ _ _ => rfl
  · refine snd_bind_congr (by rfl) fun bytes t t' => ?_
    refine snd_bind_congr ?_ fun _ _ _ => rfl
    rw [applyBytes]
    cases h.decodeUpdate bytes with
    | error e => rfl
    | ok u => rfl
  · exact snd_bind_congr (hstate (hfull ▸ by decide)) fun _ _ _ => rfl
  · rfl

lemma reply_serveRequest (hsame : SameOutsideKbs s s') (hspares : SparesKbs request) :
    (serveRequest h who request s).2 = (serveRequest h who request s').2 := by
  rw [serveRequest]
  cases hcall : toolCall request with
  | some call =>
    have htool := reply_handleSyncTool (h := h) hsame call.1 (hspares call.1 call.2 hcall)
    dsimp only
    split_ifs
    · refine snd_bind_congr (congrArg Except.ok htool) fun r t t' => ?_
      cases r with
      | ok reply => rfl
      | error e => rfl
    · exact congrArg (Except.mapError internalError) htool
  | none =>
    dsimp only
    split_ifs
    · refine snd_bind_congr ?_ fun _ _ _ => rfl
      rw [subscribeTypes]
      cases (request.params.field "types").asArray with
      | none => rfl
      | some types => rfl
    · rfl
    · rfl

end Tools

def RoutedToDispatcher : Prop :=
  ∀ s, handleMessage h who msg s = ((handleDocRequestInner h who msg s).1, (handleDocRequestInner h who msg s).2.map some)

structure BlindToKbs (h : Host Y) (who : Peer) (msg : String) : Prop where
  unchanged : ∀ (s : Server Y) (name : String), s.documents.Coherent → (kbOf name).isSome →
    (handleRequest h who msg s).1.documents.stateAt name = s.documents.stateAt name
  untold : ∀ s s' : Server Y, SameOutsideKbs s s' → (handleRequest h who msg s).2 = (handleRequest h who msg s').2

def sampleToolCall (tool doc : String) : String :=
  "\x7b\"jsonrpc\": \"2.0\", \"id\": 1, \"method\": \"tools/call\", \"params\": \x7b\"name\": \"" ++ tool ++
    "\", \"arguments\": \x7b\"doc\": \"" ++ doc ++ "\", \"update\": \"x\"\x7d\x7d\x7d"

lemma exists_member {text key : String} (h : ((parse text).bind fun j => j.get? key).isSome = true) :
    ∃ members v, parse text = some (.obj members) ∧ (Json.obj members).get? key = some v := by
  obtain ⟨v, hv⟩ := isSome_iff_exists.mp h
  obtain ⟨j, hj, hget⟩ := bind_eq_some_iff.mp hv
  cases j with
  | obj members => exact ⟨members, v, hj, hget⟩
  | null | bool _ | num _ | str _ | arr _ => simp [get?] at hget

def sampleEscaped : String :=
  "\x7b\"jsonrpc\": \"2.0\", \"id\": 1, \"method\": \"sync\\/full_state\", " ++
    "\"params\": \x7b\"doc\": \"kbn:notes:idea\"\x7d\x7d"

def sampleRewritten : Server .sample :=
  { sampleServer with documents := { sampleKbs with
      storage := Function.update sampleKbs.storage "kbn:notes:idea" (some Yrs.sample.blank) } }

def toldStates (reply : Except McpError (Reply Y)) : List Y.Update :=
  (reply.toOption.getD []).filterMap fun field =>
    match field.2 with
    | .state u => some u
    | _ => none

end Mae.Daemon
