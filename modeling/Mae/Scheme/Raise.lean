import Mae.Scheme.ErrorIsolation
import Mae.Scheme.Frames
import Mae.Scheme.TierConfinement

/-! Where control goes on after `raise`. -/

namespace Mae.Scheme

open Library Exec Relation Reading

def Reading.nesting : Reading Discipline.nesting where
  counted := False
  Height _ _ := True
  Since o _ a _ := a = o.elim 0 Nat.succ
  height_refl _ := trivial
  next k j h _ := by
    rw [Discipline.nesting, Function.iterate_id] at h ⊢
    exact h
  opened _ _ := rfl
  closed {o s c n} h := by
    refine ⟨?_, trivial⟩
    cases o with
    | none => simp [Discipline.nesting] at h
    | some c' => simpa [Discipline.nesting] using h.symm
  exit {o s a n} ha h := by
    obtain rfl : a = 0 := ha
    cases o with
    | none => rfl
    | some c => simp at h
  low _ h _ := h.elim
  below _ _ _ := trivial

lemma Reading.nesting_loose : nesting.Loose := ⟨fun _ _ _ => trivial, fun _ _ _ => rfl⟩

variable {W : Type}

def Vm.Loaded (host : Host W) (m : Vm W) : Prop :=
  ∃ (timeout : Option LispError) (fuel : ℕ) (s : Session) (source : String) (m₀ m₁ m₂ : Vm W)
    (r : Except LispError (List Report)) (id : Option ℕ), m₀.Fresh ∧ s.run host timeout fuel m₀ = some (r, m₁) ∧
      submit host (calls host timeout fuel) fuel source m₁ = some (.ok id, m₂) ∧ m.codePool = m₂.codePool

def Started (host : Host W) (m : Vm W) : Prop :=
  ∃ (timeout : Option LispError) (fuel : ℕ) (s : Session) (source : String) (m₀ m₁ m₂ : Vm W)
    (r : Except LispError (List Report)) (id : ℕ) (code : CodeObject),
    m₀.Fresh ∧ s.run host timeout fuel m₀ = some (r, m₁) ∧
      submit host (calls host timeout fuel) fuel source m₁ = some (.ok (some id), m₂) ∧ m₂.Idle ∧
      m₂.codePool[id]? = some code ∧
      m = { m₂ with frames := ⟨id, 0, m₂.stack.length, [], code.name, [], none⟩ :: m₂.frames }

def CalmRun (host : Host W) : Vm W → Vm W → Prop :=
  ReflTransGen fun m m' => ∃ fuel, m.Calm host (calls host none fuel) ∧ Advances host (calls host none fuel) m m'

def IsClause (pool : List CodeObject) (codeId ip : ℕ) : Prop :=
  ∃ code i off, pool[codeId]? = some code ∧ code.ops[i]? = some (.pushHandler off) ∧ ip = Vm.jumpTarget (i + 1) off

structure Vm.Guarded (L : ℕ → List ℕ) (m : Vm W) : Prop where
  flat : m.Flat
  labelled : Discipline.nesting.Labelled m.codePool L
  stacked : nesting.Stacked L (fun _ hs => hs = []) [] m.control
  clauses : ∀ ip codeId s d, .guard ip codeId s d ∈ m.handlers → IsClause m.codePool codeId ip

variable {host : Host W} {m m' : Vm W} {L : ℕ → List ℕ}

lemma Session.run_shaped {timeout : Option LispError} {fuel : ℕ} {s : Session} {r : Except LispError (List Report)}
    (hm : m.Fresh) (h : s.run host timeout fuel m = some (r, m')) :
    (∀ q ∈ m'.executed, q.1 < m'.codePool.length) ∧ ∀ code ∈ m'.codePool, code.Shaped := by
  have hready : s.Ready False m := by
    refine ⟨?_, ?_, ?_, False.elim, False.elim, False.elim⟩
    · simp [hm.executed]
    · simp [hm.codePool]
    · simp [Vm.InvokesWithin, hm.invocations]
  have hrun := Session.run_ended host timeout fuel s hready
  cases r with
  | error e => exact (hrun.of_error h).elim
  | ok reports => exact ⟨(hrun.of_ok h).executed, (hrun.of_ok h).shaped⟩

lemma Vm.Loaded.shaped (h : m.Loaded host) : ∀ code ∈ m.codePool, code.Shaped := by
  obtain ⟨timeout, fuel, s, source, m0, m1, m2, r, id, hfresh, hrun, hsubmit, hpool⟩ := h
  obtain ⟨hexecuted, hshaped⟩ := Session.run_shaped hfresh hrun
  have hm1 : Orderly False m1.store.invocations m1.submitted m1.ambientTier m1 :=
    ⟨⟨rfl, fun p hp => Or.inl hp, hexecuted, hshaped, False.elim⟩, Quiet.refl _⟩
  rw [hpool]
  exact ((submit_keeps (calls_confines host timeout fuel) fuel source m1 hm1).of_ok hsubmit).1.1.shaped

lemma Started.loaded (h : Started host m) : m.Loaded host := by
  obtain ⟨timeout, fuel, s, source, m0, m1, m2, r, id, code, hfresh, hrun, hsubmit, -, -, rfl⟩ := h
  exact ⟨timeout, fuel, s, source, m0, m1, m2, r, some id, hfresh, hrun, hsubmit, rfl⟩

lemma Started.guarded (h : Started host m) (hflat : m.Flat) : ∃ L, m.Guarded L := by
  obtain ⟨L, hL⟩ := Discipline.exists_labelled (D := .nesting) h.loaded.shaped fun _ _ => trivial
  obtain ⟨-, -, -, -, -, -, m2, -, id, code, -, -, -, hidle, hcode, rfl⟩ := h
  refine ⟨L, hflat, hL, ⟨[⟨id, 0, m2.stack.length, [], code.name, [], none⟩], ?_, ?_⟩, ?_⟩
  · simp [Vm.control, hidle.frames]
  · exact ⟨[], [], 0, hidle.handlers, (hL id).1, rfl, rfl⟩
  · simp [hidle.handlers]

lemma Move.clauses {pool : List CodeObject} {c c' : Control} (h : Move pool c c')
    (hc : ∀ ip codeId s d, .guard ip codeId s d ∈ c.handlers → IsClause pool codeId ip) :
    ∀ ip codeId s d, .guard ip codeId s d ∈ c'.handlers → IsClause pool codeId ip := by
  intro ip codeId s d hm
  cases h with
  | ret | next | jump | enter | reenter => exact hc _ _ _ _ hm
  | opened hcode hop =>
    rcases List.mem_cons.1 hm with heq | hm
    · cases heq
      exact ⟨_, _, _, hcode, hop, rfl⟩
    · exact hc _ _ _ _ hm
  | installed => exact hc _ _ _ _ (by simpa using hm)
  | closed => exact hc _ _ _ _ (List.mem_of_mem_tail hm)
  | unwind => exact hc _ _ _ _ (List.mem_cons_of_mem _ hm)

lemma Vm.Guarded.moves (h : m.Guarded L) (hmove : m.Moves m') : m'.Guarded L := by
  refine ⟨hmove.flat h.flat, hmove.codePool ▸ h.labelled, ?_, hmove.codePool ▸ hmove.move.clauses h.clauses⟩
  obtain ⟨fs, hframes, hfs⟩ := h.stacked
  cases fs with
  | nil =>
    exact absurd hframes hmove.move.frames_ne_nil
  | cons f fs =>
    have hcontrol : m.control = ⟨m.stack, f :: (fs ++ []), m.handlers⟩ := by
      exact congrArg (Control.mk m.stack · m.handlers) hframes
    have hm := hmove.move
    rw [hcontrol] at hm
    rcases Running.move [] h.labelled nesting_loose (fun _ _ _ _ h _ => h) hfs hm with hs | hs
    · exact hs
    · obtain ⟨n0, st', v, ip, id, s, d, hs', fs', -, hnil, hguard, -⟩ := hs
      simp [hnil] at hguard

lemma CalmRun.guarded (h : CalmRun host m m') (hm : m.Guarded L) : m'.Guarded L := by
  induction h with
  | refl => exact hm
  | tail _ hstep ih =>
    obtain ⟨fuel, hcalm, hadv⟩ := hstep
    exact ih.moves (hadv.moves ih.flat hcalm)

lemma Reading.Waiting.innermost {fs : List Frame} {n ip id s d : ℕ} {hs : List ExceptionHandler}
    (h : nesting.Waiting L (fun _ hs => hs = []) 0 fs n (.guard ip id s d :: hs)) :
    ∃ gs g fs' k, fs = gs ++ g :: fs' ∧ (∀ x ∈ gs, (L x.codeId)[x.ip]? = some 0) ∧ id = g.codeId ∧
      d = fs'.length + 1 ∧ (L g.codeId)[g.ip]? = some (k + 1) ∧ (L g.codeId)[ip]? = some k := by
  induction fs generalizing n with
  | nil => simp [Waiting] at h
  | cons f fs ih =>
    obtain ⟨own, rest, c, hhs, hc, hfits, h⟩ := h
    cases own with
    | nil =>
      obtain rfl : _ = rest := hhs
      obtain ⟨gs, g, fs', k, rfl, hgs, hg⟩ := ih h
      refine ⟨f :: gs, g, fs', k, rfl, List.forall_mem_cons.2 ⟨?_, hgs⟩, hg⟩
      rw [hc, hfits]
      rfl
    | cons handler own =>
      cases hhs
      obtain ⟨rfl, rfl, k, hk, hlab, -⟩ := hfits
      refine ⟨[], f, fs, k, rfl, by simp, rfl, rfl, ?_, hlab⟩
      rw [hc, hk]
      rfl

def Vm.AtRaise (m : Vm W) : Prop :=
  ∃ f fs code, m.frames = f :: fs ∧ m.codePool[f.codeId]? = some code ∧ code.ops[f.ip]? = some .raise

def ResumesAtGuard (m m' : Vm W) : Prop :=
  ∃ L gs g fs ip s hs k, Discipline.nesting.Labelled m.codePool L ∧ m.frames = gs ++ g :: fs ∧
    m.handlers = .guard ip g.codeId s (fs.length + 1) :: hs ∧ IsClause m.codePool g.codeId ip ∧
    (∀ x ∈ gs, (L x.codeId)[x.ip]? = some 0) ∧ (L g.codeId)[g.ip]? = some (k + 1) ∧ (L g.codeId)[ip]? = some k ∧
    m'.frames = { g with ip := ip } :: fs ∧ m'.handlers = hs

lemma Vm.Guarded.innermost (h : m.Guarded L) {ip id s d : ℕ} {hs : List ExceptionHandler}
    (hh : m.handlers = .guard ip id s d :: hs) :
    ∃ gs g fs k, m.frames = gs ++ g :: fs ∧ (∀ x ∈ gs, (L x.codeId)[x.ip]? = some 0) ∧ id = g.codeId ∧
      d = fs.length + 1 ∧ (L g.codeId)[g.ip]? = some (k + 1) ∧ (L g.codeId)[ip]? = some k := by
  obtain ⟨fs, hframes, hfs⟩ := h.stacked
  obtain rfl : m.frames = fs := by simpa [Vm.control] using hframes
  cases hf : m.frames with
  | nil =>
    rw [hf] at hfs
    simp [Vm.control, hh] at hfs
  | cons f fs =>
    rw [hf] at hfs
    obtain ⟨own, rest, a, hhs, ha, hfits, hwait⟩ := hfs
    have hall : nesting.Waiting L (fun _ hs => hs = []) 0 (f :: fs) m.stack.length m.handlers :=
      ⟨own, rest, a, hhs, ha, hfits, hwait⟩
    rw [hh] at hall
    exact hall.innermost

section

variable (host) (self : Calls W) {f : Frame} {fs : List Frame} {code : CodeObject} (hat : m.At f fs code .raise)
include hat

lemma step_raise :
    step host self m = (dispatchRaise host self (m.top .void) >>= fun _ => pure none) (m.advance f).drop := by
  rw [hat.step_eq host self]
  rfl

lemma step_raise_unhandled (hh : m.handlers = []) : ∃ e m', step host self m = some (.error e, m') := by
  obtain ⟨e, hd⟩ : ∃ e, dispatchRaise host self (m.top .void) (m.advance f).drop = some (.error e, (m.advance f).drop) := by
    have hh' : (m.advance f).drop.handlers = [] := hh
    simp [dispatchRaise, bind_apply, hh']
  exact ⟨e, _, (step_raise host self hat).trans (bind_of_error hd)⟩

lemma step_raise_guarded {ip id s d : ℕ} {hs : List ExceptionHandler} (hh : m.handlers = .guard ip id s d :: hs) :
    ∃ m', step host self m = some (.ok none, m') ∧
      m'.frames = unwound ip id d ({ f with ip := f.ip + 1 } :: fs) ∧ m'.handlers = hs := by
  have hh' : (m.advance f).drop.handlers = .guard ip id s d :: hs := hh
  have hf' : (m.advance f).frames = { f with ip := f.ip + 1 } :: fs := by simp [Vm.advance, Vm.mapFrame, hat.frames]
  have hd : dispatchRaise host self (m.top .void) (m.advance f).drop =
      some (.ok (), (m.advance f).drop.popHandler.unwindTo ip id s d (m.top .void)) := by
    simp only [dispatchRaise, bind_apply, get_apply, hh', modify_apply]
  refine ⟨_, (step_raise host self hat).trans (bind_of_ok hd), ?_, ?_⟩
  · rw [← hf']
    rfl
  · change (m.advance f).drop.handlers.tail = hs
    rw [hh', List.tail_cons]

end

theorem raise_reaches_innermost_guard {m₁ : Vm W} (fuel : ℕ) (hstart : Started host m₁) (hflat : m₁.Flat)
    (hrun : CalmRun host m₁ m) (hcalm : m.Calm host (calls host none fuel)) (hraise : m.AtRaise) :
    (m.handlers = [] ∧ ∃ e m', run host (fuel + 1) m = some (.error e, m')) ∨
      ∃ m', step host (calls host none fuel) m = some (.ok none, m') ∧ ResumesAtGuard m m' := by
  obtain ⟨L, hL⟩ := hstart.guarded hflat
  have hm := hrun.guarded hL
  obtain ⟨f, fs, code, hframes, hcode, hop⟩ := hraise
  have hat : m.At f fs code .raise := ⟨hframes, hcode, hop⟩
  cases hh : m.handlers with
  | nil =>
    obtain ⟨e, m', hstep⟩ := step_raise_unhandled host (calls host none fuel) hat hh
    exact Or.inl ⟨rfl, e, m', bind_of_error hstep⟩
  | cons handler hs =>
    cases handler with
    | closure func => exact absurd ⟨f, fs, code, .raise, hframes, hcode, hop, Or.inl rfl⟩ (hcalm func hs hh)
    | guard ip id s d =>
      obtain ⟨gs, g, fs', k, hgs, hzero, rfl, rfl, hk, hip⟩ := hm.innermost hh
      obtain ⟨m', hstep, hf', hh'⟩ := step_raise_guarded host (calls host none fuel) hat hh
      refine Or.inr ⟨m', hstep, L, gs, g, fs', ip, s, hs, k, hm.labelled, hgs, hh, ?_, hzero, hk, hip, ?_, hh'⟩
      · exact hm.clauses ip g.codeId s _ (hh ▸ List.mem_cons_self)
      · rw [hf']
        rw [hframes] at hgs
        cases gs with
        | nil =>
          cases hgs
          exact unwound_self ip f fs
        | cons x gs =>
          cases hgs
          exact unwound_append ip g.codeId ({ f with ip := f.ip + 1 } :: gs) g fs'

def raisingPrograms : Host SampleWorld :=
  .primitive [("ignoring", [.list [sym "guard", .list [sym "e", .list [.bool true, quoted (sym "caught")]],
      .list [sym "with-exception-handler", lambdaOf (.list [sym "x"]) [quoted (sym "ignored")],
        lambdaOf .null [.list [sym "raise", quoted (sym "boom")], .list [sym "display", .string "after"]]]]]),
    ("guarded", [.list [sym "guard", .list [sym "e", .list [.bool true, quoted (sym "caught")]],
      .list [sym "raise", quoted (sym "boom")]]]),
    ("nothing", [])]

theorem raise_falls_through :
    (eval raisingPrograms 200 "ignoring" .primitive).map (fun p => (p.1, p.2.store.world.displayed)) =
      some (.ok .void, [.string "after"]) := by
  decide +kernel

theorem guarded_raise_resumes : ∃ m₁ m m', Started raisingPrograms m₁ ∧ CalmRun raisingPrograms m₁ m ∧ m.AtRaise ∧
      step raisingPrograms (calls raisingPrograms none 5) m = some (.ok none, m') ∧ ResumesAtGuard m m' := by
  obtain ⟨m₁, m₂, m, ip, id, s, d, hstart, hflat, hstep₁, hstep₂, hnil, hguard₂, hguard, hraise⟩ :
      ∃ m₁ m₂ m ip id s d, Started raisingPrograms m₁ ∧ m₁.Flat ∧
        step raisingPrograms (calls raisingPrograms none 5) m₁ = some (.ok none, m₂) ∧
        step raisingPrograms (calls raisingPrograms none 5) m₂ = some (.ok none, m) ∧ m₁.handlers = [] ∧
        m₂.handlers = [.guard ip id s d] ∧ m.handlers = [.guard ip id s d] ∧ m.AtRaise :=
    ⟨_, _, _, _, _, _, _, ⟨none, 20, .eval "nothing", "guarded", .primitive, _, _, _, _, _, ⟨rfl, rfl, rfl, rfl⟩, rfl, rfl,
      ⟨rfl, rfl, rfl, rfl⟩, rfl, rfl⟩, ⟨by decide, rfl⟩, rfl, rfl, rfl, rfl, rfl, _, _, _, rfl, rfl, rfl⟩
  have hrun : CalmRun raisingPrograms m₁ m :=
    .head ⟨5, by simp [Vm.Calm, hnil], Or.inl hstep₁⟩ (.single ⟨5, by simp [Vm.Calm, hguard₂], Or.inl hstep₂⟩)
  rcases raise_reaches_innermost_guard 5 hstart hflat hrun (by simp [Vm.Calm, hguard]) hraise with h | ⟨m', h⟩
  · simp [hguard] at h
  · exact ⟨m₁, m, m', hstart, hrun, hraise, h⟩

end Mae.Scheme
