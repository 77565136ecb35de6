import Mae.Scheme.History

/-! The variables of a library after its definition. -/

namespace Mae.Scheme

open Library Exec Relation

variable {W : Type}

def Vm.Inside (m : Vm W) (i : ℕ) : Prop := m.libraryEnv = none ∧ ∃ f fs, m.frames = f :: fs ∧ f.moduleEnv = some i

def Assigns (host : Host W) (name : String) (v : Value) (m m' : Vm W) : Prop :=
  ∃ timeout fuel f fs code, m.frames = f :: fs ∧ m.codePool[f.codeId]? = some code ∧
    code.ops[f.ip]? = some (.storeGlobal name) ∧ m.top .void = v ∧
    step host (calls host timeout fuel) m = some (.ok none, m')

variable {host : Host W} {m m' s : Vm W} {i : ℕ} {name : String} {v v₀ : Value}

lemma Vm.Inside.resolveGlobal (h : m.Inside i) (hv : (m.store.env i)[name]? = some v) : m.resolveGlobal name = .ok v := by
  obtain ⟨hlib, f, fs, hframes, hmod⟩ := h
  simp [Vm.resolveGlobal, hlib, hframes, hmod, hv]

lemma Later.env_eq (h : Later host m s) (hlib : m.libraryEnv = none) (hi : i < m.store.envs.length) :
    s.store.env i = m.store.env i := by
  have henv := h.retains.envs i hi (by simp [hlib])
  simp [Store.env, List.getD_eq_getElem?_getD, henv]

lemma Assigns.eq (h : Assigns host name v m m') (hlib : m.libraryEnv = none) :
    ∃ f fs, m.frames = f :: fs ∧ m'.frames = { f with ip := f.ip + 1 } :: fs ∧ m'.libraryEnv = none ∧
      m'.store = m.store ∧ m'.globals = m.globals.insert name v := by
  obtain ⟨timeout, fuel, f, fs, code, hframes, hcode, hop, rfl, hstep⟩ := h
  have hm' : m' = (m.advance f).drop.defineGlobal name (m.top .void) := by
    rw [Vm.At.step_eq host _ ⟨hframes, hcode, hop⟩] at hstep
    exact (congrArg Prod.snd (Option.some.inj hstep)).symm
  refine ⟨f, fs, hframes, ?_⟩
  rw [hm', Vm.defineGlobal, Vm.mapLibraryEnv]
  simp [hlib, Vm.advance, Vm.drop, Vm.mapFrame, hframes]

lemma Assigns.happens (h : Assigns host name v m m') : Happens host m m' := by
  obtain ⟨timeout, fuel, f, fs, code, -, -, -, -, hstep⟩ := h
  exact .turn hstep

lemma Env.insert_eq_self_iff {env : Env} : env.insert name v = env ↔ env[name]? = some v := by
  constructor
  · intro h
    rw [← h]
    exact Std.ExtTreeMap.getElem?_insert_self
  · intro h
    refine Std.ExtTreeMap.ext_getElem? fun k => ?_
    rw [Std.ExtTreeMap.getElem?_insert]
    split
    · rename_i hk
      rw [← h, Std.LawfulEqCmp.eq_of_compare hk]
    · rfl

def counterPrograms : Host SampleWorld :=
  .primitive [("library", [.list [sym "define-library", .list [sym "counter"],
      .list [sym "export", sym "next!", sym "count", sym "later"],
      .list [sym "begin", .list [sym "define", sym "n", .int 0],
        .list [sym "define", .list [sym "next!"], .list [sym "set!", sym "n", .int 1]],
        .list [sym "define", .list [sym "count"], sym "n"],
        .list [sym "define", .list [sym "later"], lambdaOf .null [sym "n"]]]],
      .list [sym "import", .list [sym "counter"]]]),
    ("reader", [.list [sym "define-library", .list [sym "counter"], .list [sym "export", sym "count"],
      .list [sym "begin", .list [sym "define", sym "n", .int 0], .list [sym "define", .list [sym "count"], sym "n"]]],
      .list [sym "import", .list [sym "counter"]]]),
    ("counts", [.list [sym "next!"], .list [sym "display", .list [sym "count"]], .list [sym "display", sym "n"]]),
    ("defers", [.list [.list [sym "later"]]])]

def counterResult (program : String) : Option (Except LispError Value × List Value) :=
  let both : VmM SampleWorld Value := do
    let _ ← eval counterPrograms 60 "library"
    eval counterPrograms 60 program
  (both .primitive).map fun p => (p.1, p.2.store.world.displayed)

end Mae.Scheme
