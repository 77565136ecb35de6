import Mae.Scheme.History

/-! What a continuation brings back when it is invoked. -/

namespace Mae.Scheme

open Library Exec Relation

variable {W : Type}

def Vm.readLocal (m : Vm W) (f : Frame) (idx : ℕ) : Value :=
  match f.localCells.lookup idx with
  | some cell => m.store.cell cell
  | none => m.slot f idx

def Captures (host : Host W) (m m' : Vm W) : Prop :=
  ∃ self f fs code, m.frames = f :: fs ∧ m.codePool[f.codeId]? = some code ∧ code.ops[f.ip]? = some .captureCc ∧
    step host self m = some (.ok none, m')

def Winds (self : Calls W) (target : List Winder) (m m' : Vm W) : Prop :=
  let common := Vm.commonWinders m.winders target
  (do callThunks self ((m.winders.drop common).reverse.map Winder.after)
      callThunks self ((target.drop common).map Winder.before)) m = some (.ok (), m')

variable {host : Host W} {self : Calls W} {m₀ m₁ m m' mw : Vm W}

lemma Captures.record (h : Captures host m m') :
    ∃ f fs, m.frames = f :: fs ∧ m'.store.continuations[m.store.continuations.length]? =
      some ⟨m.stack.dropLast, { f with ip := f.ip + 2 } :: fs, m.winders⟩ := by
  obtain ⟨self, f, fs, code, hframes, hcode, hop, hstep⟩ := h
  refine ⟨f, fs, hframes, ?_⟩
  have hm' : m' = (m.advance f).captureCc := by
    rw [Vm.At.step_eq host self ⟨hframes, hcode, hop⟩] at hstep
    simp only [execOp, bind_apply, get_apply] at hstep
    cases hempty : (m.advance f).stack.isEmpty with
    | true => simp [hempty] at hstep
    | false => simpa [hempty, bind_apply] using hstep.symm
  simp [hm', Vm.captureCc, Vm.advance, Vm.mapFrame, Vm.mapStore, Vm.push, hframes]

lemma callThunkWithArgs_context (func : Value) (args : List Value) (m : Vm W) :
    wp (callThunkWithArgs self func args) m (fun _ m' => m'.handlers = m.handlers) fun _ _ => True := by
  rw [callThunkWithArgs, wp_bind, wp_get, wp_bind, wp_modify, wp_bind, wp_attempt]
  refine wp_of_forall (fun v t => ?_) fun e t => ?_
  · rw [wp_bind, wp_modify, wp_lift_ok]
  · trivial

lemma callThunks_handlers (thunks : List Value) (m : Vm W) :
    wp (callThunks self thunks) m (fun _ m' => m'.handlers = m.handlers) fun _ _ => True := by
  induction thunks generalizing m with
  | nil => rfl
  | cons thunk thunks ih =>
    rw [callThunks, wp_bind]
    refine (callThunkWithArgs_context thunk [] m).mono (fun _ t ht => ?_) fun _ _ h => h
    exact (ih t).mono (fun _ _ h => h.trans ht) fun _ _ h => h

lemma Winds.handlers {target : List Winder} (h : Winds self target m mw) : mw.handlers = m.handlers := by
  rw [Winds, bind_eq_ok] at h
  obtain ⟨_, t, hleave, henter⟩ := h
  exact ((callThunks_handlers _ _).of_ok henter).trans ((callThunks_handlers _ _).of_ok hleave)

lemma doCall_continuation {st : List Value} {v : Value} {id : ℕ} {cont : Continuation} (tail : Bool)
    (hstack : m.stack = st ++ [.continuation id, v]) (hcont : m.store.continuations[id]? = some cont)
    (hwind : Winds self cont.winders { m with stack := st } mw) :
    doCall host self 1 tail m =
      some (.ok (), { mw with winders := cont.winders, stack := cont.stack ++ [v], frames := cont.frames }) := by
  have hpos : m.stack.length - 1 - 1 = st.length := by simp [hstack]
  have hfn : m.stack.getD st.length .void = .continuation id := by simp [hstack]
  have hunder : decide (1 + 1 ≤ m.stack.length) = true := by simp [hstack]
  have htop : m.top .void = v := by simp [Vm.top, hstack]
  have hrest : m.drop.truncate st.length = { m with stack := st } := by simp [Vm.drop, Vm.truncate, hstack]
  rw [Winds, bind_eq_ok] at hwind
  obtain ⟨_, t, hleave, henter⟩ := hwind
  have hcall : callContinuation self cont 1 st.length m =
      some (.ok (), { mw with winders := cont.winders, stack := cont.stack ++ [v], frames := cont.frames }) := by
    have hpop : pop .void m = some (.ok v, m.drop) := by
      rw [← htop]
      rfl
    rw [callContinuation, bind_of_ok (require_of_true _ m (beq_self_eq_true 1)), bind_of_ok hpop, bind_of_ok (modify_apply _ _), hrest,
      bind_of_ok (get_apply _), bind_of_ok hleave, bind_of_ok henter, modify_apply]
  rw [doCall, bind_of_ok (get_apply m), bind_of_ok (require_of_true _ m hunder), hpos, hfn]
  simp only [hcont]
  exact hcall

theorem continuation_restores_context {st : List Value} {v : Value} (tail : Bool) (hcap : Captures host m₀ m₁)
    (hlater : Later host m₁ m) (hstack : m.stack = st ++ [.continuation m₀.store.continuations.length, v])
    (hwind : Winds self m₀.winders { m with stack := st } mw) :
    ∃ m' f fs, doCall host self 1 tail m = some (.ok (), m') ∧ m₀.frames = f :: fs ∧
      m'.stack = m₀.stack.dropLast ++ [v] ∧ m'.frames = { f with ip := f.ip + 2 } :: fs ∧
      m'.winders = m₀.winders ∧ (m'.handlers = m₀.handlers ↔ m.handlers = m₀.handlers) ∧
      (m'.globals, m'.libraryEnv, m'.store) = (mw.globals, mw.libraryEnv, mw.store) ∧
      ∀ g ∈ m'.frames, ∀ idx current, g.bp + idx + 1 < m₀.stack.length →
        (m'.readLocal g idx = current ↔ (∃ cell, g.localCells.lookup idx = some cell ∧ mw.store.cell cell = current) ∨
            g.localCells.lookup idx = none ∧ m₀.readLocal g idx = current) := by
  obtain ⟨f, fs, hframes, hrecord⟩ := hcap.record
  obtain ⟨new, hnew⟩ := hlater.retains.continuations
  have hcont : m.store.continuations[m₀.store.continuations.length]? =
      some ⟨m₀.stack.dropLast, { f with ip := f.ip + 2 } :: fs, m₀.winders⟩ := by
    rw [← hnew, List.getElem?_append_left (List.getElem?_eq_some_iff.1 hrecord).1]
    exact hrecord
  refine ⟨_, f, fs, doCall_continuation tail hstack hcont hwind, hframes, rfl, rfl, rfl, ?_, rfl, ?_⟩
  · rw [hwind.handlers]
  · intro g _ idx current hlt
    rw [Vm.readLocal, Vm.readLocal]
    cases g.localCells.lookup idx with
    | some cell => simp
    | none =>
      have hslot : (m₀.stack.dropLast ++ [v])[g.bp + idx]? = m₀.stack[g.bp + idx]? := by
        rw [List.getElem?_append_left (by simp; omega), List.getElem?_dropLast, if_pos (by omega)]
      simp [Vm.slot, hslot]

def continuationPrograms : Host SampleWorld :=
  .primitive [("leaves guard", [.list [sym "define", sym "k", .bool false], .list [sym "define", sym "n", .int 0],
      .list [sym "call/cc", lambdaOf (.list [sym "c"]) [.list [sym "set!", sym "k", sym "c"]]],
      .list [sym "if", .list [sym "=", sym "n", .int 0],
        .list [sym "begin", .list [sym "set!", sym "n", .int 1],
          .list [sym "guard", .list [sym "e", .list [.bool true, .list [sym "display", .string "caught"]]],
            .list [sym "k", .int 0]]],
        .list [sym "raise", quoted (sym "boom")]]]),
    ("assigns", [.list [sym "define", sym "k", .bool false], .list [sym "define", sym "n", .int 0],
      .list [lambdaOf (.list [sym "x"])
          [.list [sym "call/cc", lambdaOf (.list [sym "c"]) [.list [sym "set!", sym "k", sym "c"]]],
            .list [sym "if", .list [sym "=", sym "n", .int 0],
              .list [sym "begin", .list [sym "set!", sym "n", .int 1], .list [sym "set!", sym "x", .int 5],
                .list [sym "k", .int 0]],
              .list [sym "display", sym "x"]]],
        .int 0]]),
    ("escapes", [.list [sym "call/cc", lambdaOf (.list [sym "c"]) [.list [sym "c", .int 5]]]]),
    ("nothing", [])]

theorem continuation_keeps_stale_guard_and_value :
    (eval continuationPrograms 200 "leaves guard" .primitive).map (fun p => (p.1, p.2.store.world.displayed)) =
      some (.ok .void, [.string "caught"]) ∧
    (eval continuationPrograms 200 "assigns" .primitive).map (fun p => (p.1, p.2.store.world.displayed)) =
      some (.ok .void, [.int 0]) := by
  decide +kernel

theorem escape_restores_context : ∃ ms m₀ m₁ m m' : Vm SampleWorld,
      submit continuationPrograms (calls continuationPrograms none 20) 20 "escapes" .primitive = some (.ok (some 1), ms) ∧
      Later continuationPrograms ms m₀ ∧ Captures continuationPrograms m₀ m₁ ∧ Later continuationPrograms m₁ m ∧
      doCall continuationPrograms (calls continuationPrograms none 5) 1 true m = some (.ok (), m') ∧
      m'.stack = m₀.stack.dropLast ++ [.int 5] ∧ m'.winders = m₀.winders ∧ m'.handlers = m₀.handlers := by
  obtain ⟨ms, m₀, m₁, m₂, m₃, m, f, code, hsubmit, h₀, hframes, hcode, hop, h₁, h₂, h₃, h₄, hstack, hh, hwind⟩ :
      ∃ (ms m₀ m₁ m₂ m₃ m : Vm SampleWorld) (f : Frame) (code : CodeObject),
        submit continuationPrograms (calls continuationPrograms none 20) 20 "escapes" .primitive =
          some (.ok (some 1), ms) ∧
        step continuationPrograms (calls continuationPrograms none 5)
          { ms with
            stack := ms.stack
            frames := [⟨1, 0, ms.stack.length, [], none, [], none⟩]
            handlers := ms.handlers
            winders := ms.winders } = some (.ok none, m₀) ∧
        m₀.frames = [f] ∧ m₀.codePool[f.codeId]? = some code ∧ code.ops[f.ip]? = some .captureCc ∧
        step continuationPrograms (calls continuationPrograms none 5) m₀ = some (.ok none, m₁) ∧
        step continuationPrograms (calls continuationPrograms none 5) m₁ = some (.ok none, m₂) ∧
        step continuationPrograms (calls continuationPrograms none 5) m₂ = some (.ok none, m₃) ∧
        step continuationPrograms (calls continuationPrograms none 5) m₃ = some (.ok none, m) ∧
        m.stack = [.continuation 0] ++ [.continuation m₀.store.continuations.length, .int 5] ∧
        m.handlers = m₀.handlers ∧
        Winds (calls continuationPrograms none 5) m₀.winders { m with stack := [.continuation 0] }
          { m with stack := [.continuation 0] } :=
    ⟨_, _, _, _, _, _, _, _, rfl, rfl, rfl, rfl, rfl, rfl, rfl, rfl, rfl, rfl, rfl, rfl⟩
  have hcap : Captures continuationPrograms m₀ m₁ := ⟨_, f, [], code, hframes, hcode, hop, h₁⟩
  have hlater : Later continuationPrograms m₁ m := .head (.turn h₂) (.head (.turn h₃) (.single (.turn h₄)))
  obtain ⟨m', _, _, hcall, -, hstack', -, hwinders, hhandlers, -⟩ :=
    continuation_restores_context true hcap hlater hstack hwind
  exact ⟨ms, m₀, m₁, m, m', hsubmit, .head .context (.single (.turn h₀)), hcap, hlater, hcall, hstack', hwinders,
    hhandlers.2 hh⟩

end Mae.Scheme
