import Mae.Scheme.Raise
import Mae.Scheme.Region

/-! The handlers of the forms that install them. -/

namespace Mae.Scheme

open Library Exec Relation Reading

variable {W : Type} {host : Host W} {m m' : Vm W} {f : Frame} {fs : List Frame} {ops : List Op}
  {rest hs : List ExceptionHandler} {tail : Bool}

def ReturnRun (fs : List Frame) (rest : List ExceptionHandler) (host : Host W) : Vm W → Vm W → Prop :=
  ReflTransGen fun m m' => fs.length < m.frames.length ∧ CalmTurn rest host m m'

inductive Finishes (f : Frame) (fs : List Frame) (ops : List Op) (rest : List ExceptionHandler) (host : Host W)
    (m m' : Vm W) : Prop
  | falls (hrun : EvalRun f fs ops rest host m m') (hend : m'.Evaluated f fs ops)
  | returns {m₁ m₂} (hrun : EvalRun f fs ops rest host m m₁) (heval : m₁.Evaluates f fs ops)
      (hturn : CalmTurn rest host m₁ m₂) (hleft : ¬ (m₂.Evaluates f fs ops ∨ m₂.Evaluated f fs ops))
      (hrun' : ReturnRun fs rest host m₂ m') (hend : m'.frames = fs)

def FormCode (ops : List Op) : Prop :=
  (∃ tail, CodeOf tail ops) ∨ ∃ thunk, CodeOf false thunk ∧ ops = thunk ++ [.call 0]

lemma FormCode.segment (h : FormCode ops) : Discipline.nesting.flow.Segment 0 ops 0 := by
  rcases h with ⟨tail, h⟩ | ⟨thunk, h, rfl⟩
  · exact h.emits .nesting 0 (fun _ => rfl) trivial
  · have hcall : Discipline.nesting.Emits false (thunk ++ [if false then .tailCall 0 else .call 0]) :=
      Discipline.emits_call (h.emits .nesting).leaves
    exact hcall 0 (fun _ => rfl) trivial

section

variable {L : ℕ → List ℕ} {ls : List ℕ}

lemma nesting_site (hL : Discipline.nesting.Labelled m.codePool L) (hplaced : Placed m.codePool f.codeId f.ip ops)
    (hls : Discipline.nesting.flow.Labels ops ls [0]) (hhead : (ls ++ [0]).head? = some 0) :
    nesting.Site nesting L m.codePool f fs ops ls 0 f.bp where
  loose := nesting_loose
  height _ _ _ _ := trivial
  counted := id
  labelled := hL
  placed := hplaced
  labels := hls
  exit _ _ _ _ _ := by
    refine ⟨rfl, fun a0 n ha0 => ?_⟩
    rw [hhead] at ha0
    exact (Option.some.inj ha0).symm
  steady _ _ _ _ _ _ _ _ := fun _ _ => Or.inr fun _ _ _ => trivial

lemma Reading.InRegion.suffix {lab : ℕ → Option ℕ} {base : ℕ} {c : Control}
    (h : nesting.InRegion nesting L lab f fs base rest c) : rest <:+ c.handlers := by
  cases h with
  | @here i cells own => exact List.suffix_append own rest
  | above hrun =>
    obtain ⟨n, hs, ⟨own, b, rfl, -⟩, hsuf⟩ := hrun.exists_bottom
    exact (List.suffix_append own rest).trans hsuf

lemma Reading.InRegion.located {base : ℕ} (hlen : ls.length = ops.length)
    (h : nesting.InRegion nesting L (labelsFrom f.ip (ls ++ [0])) f fs base rest m.control) :
    m.Evaluates f fs ops ∨ m.Evaluated f fs ops := by
  have hle {i a : ℕ} (ha : labelsFrom f.ip (ls ++ [0]) i = some a) : f.ip ≤ i ∧ i ≤ f.ip + ops.length := by
    obtain ⟨j, rfl, hj⟩ := exists_of_labelsFrom ha
    have hlt := (List.getElem?_eq_some_iff.1 hj).1
    rw [List.length_append, List.length_singleton] at hlt
    omega
  generalize hc : m.control = c at h
  have hframes : m.frames = c.frames := congrArg Control.frames hc
  cases h with
  | @here i cells own a st ha hfits =>
    obtain ⟨hi, hi'⟩ := hle ha
    rcases hi'.lt_or_eq with hlt | rfl
    · exact Or.inl ⟨[], i, cells, hframes, hi, hi', fun _ => hlt⟩
    · exact Or.inr ⟨cells, hframes⟩
  | @above i cells g gs st hs hrun =>
    obtain ⟨n, hs', ⟨own, b, -, hb, -⟩, -⟩ := hrun.exists_bottom
    exact Or.inl ⟨g :: gs, i, cells, hframes, (hle hb).1, (hle hb).2, by simp⟩

lemma CalmTurn.stacked (h : CalmTurn rest host m m') (hm : m.Flat) (hL : Discipline.nesting.Labelled m.codePool L)
    (hstack : nesting.Stacked L (fun _ hs => hs = rest) fs m.control) (habove : fs.length < m.frames.length) :
    nesting.Stacked L (fun _ hs => hs = rest) fs m'.control := by
  obtain ⟨gs, hframes, hgs⟩ := hstack
  cases gs with
  | nil => exact absurd (congrArg List.length hframes) (by simpa [Vm.control] using habove.ne')
  | cons g gs =>
    have hframes' : m.frames = g :: (gs ++ fs) := hframes
    have hcontrol : m.control = ⟨m.stack, g :: (gs ++ fs), m.handlers⟩ := by rw [Vm.control, hframes']
    have hmove := (h.moves hm).move
    rw [hcontrol] at hmove
    rcases Running.move fs hL nesting_loose (fun _ _ _ _ h _ => h) hgs hmove with hs | hs
    · exact hs
    · obtain ⟨n0, st', v, ip, id, s, d, hs', fs', hop, hrest, hguard, -, hc⟩ := hs
      exact absurd (congrArg Control.handlers hc) (h.not_fails hm hframes' hop hrest (hrest.symm.trans hguard))

lemma ReturnRun.stacked (hrun : ReturnRun fs rest host m m') (hm : m.Flat)
    (hL : Discipline.nesting.Labelled m.codePool L)
    (hstack : nesting.Stacked L (fun _ hs => hs = rest) fs m.control) :
    m'.codePool = m.codePool ∧ m'.Flat ∧ nesting.Stacked L (fun _ hs => hs = rest) fs m'.control := by
  induction hrun with
  | refl => exact ⟨rfl, hm, hstack⟩
  | tail _ hstep ih =>
    obtain ⟨hpool, hflat, hstack⟩ := ih
    obtain ⟨habove, hturn⟩ := hstep
    have hmoves := hturn.moves hflat
    exact ⟨hmoves.codePool.trans hpool, hmoves.flat hflat, hturn.stacked hflat (hpool ▸ hL) hstack habove⟩

lemma Reading.Turned.stacked {base : ℕ} (hlen : ls.length = ops.length)
    (hL : Discipline.nesting.Labelled m.codePool L) (hm : m.Flat) (hturn : CalmTurn rest host m m')
    (h : nesting.Turned nesting L (labelsFrom f.ip (ls ++ [0])) f fs base rest m.codePool m.control m'.control)
    (hleft : ¬ (m'.Evaluates f fs ops ∨ m'.Evaluated f fs ops)) :
    nesting.Stacked L (fun _ hs => hs = rest) fs m'.control := by
  generalize hc : m'.control = c' at h
  cases h with
  | stays h =>
    rw [← hc] at h
    exact absurd (h.located hlen) hleft
  | replaced ha hfits hexit hip hbp =>
    exact ⟨[_], rfl, running_entry hL nesting_loose hip hbp rfl⟩
  | returns => exact ⟨[], rfl, rfl⟩
  | fails hframes hop hrest hne hs =>
    refine absurd ?_ (hturn.not_fails hm hframes hop hrest hne)
    rw [← hs, ← hc, Vm.control]

end

/-- A form that ends normally leaves the handlers as it found them, and they stay installed until then. -/
theorem handlers_balanced (hload : m.Loaded host) (hflat : m.Flat) (hframes : m.frames = f :: fs) (hcode : FormCode ops)
    (hplaced : Placed m.codePool f.codeId f.ip ops) :
    (∀ m', Finishes f fs ops m.handlers host m m' → m'.handlers = m.handlers) ∧
      ∀ m', EvalRun f fs ops m.handlers host m m' → m'.Evaluates f fs ops → m.handlers <:+ m'.handlers := by
  obtain ⟨L, hL⟩ := Discipline.exists_labelled (D := .nesting) hload.shaped fun _ _ => trivial
  obtain ⟨ls, hhead, hls⟩ := hcode.segment
  have hsite : nesting.Site nesting L m.codePool f fs ops ls 0 f.bp := nesting_site hL hplaced hls hhead
  have hin : nesting.InRegion nesting L (labelsFrom f.ip (ls ++ [0])) f fs f.bp m.handlers m.control :=
    inRegion_start hhead hframes rfl
  refine ⟨fun m' hfin => ?_, fun m' hrun heval => ?_⟩
  · cases hfin with
    | falls hrun hend =>
      obtain ⟨-, -, hregion⟩ := hrun.inRegion hsite hflat hin
      obtain ⟨own, hown, hfits⟩ := (hregion (Or.inr hend)).ended hls.length_eq hend
      obtain rfl := hfits.exit rfl
      exact hown
    | @returns m₁ m₂ hrun heval hturn hleft hrun' hend =>
      obtain ⟨hpool, hflat₁, hregion⟩ := hrun.inRegion hsite hflat hin
      rw [← hpool] at hsite hL
      have hmoves := hturn.moves hflat₁
      have hturned := hsite.turned (hregion (Or.inl heval)) heval.not_end hmoves.move
      have hstack := hturned.stacked hls.length_eq hL hflat₁ hturn hleft
      obtain ⟨-, -, gs, hgs, hstack'⟩ := hrun'.stacked (hmoves.flat hflat₁) (hmoves.codePool ▸ hL) hstack
      obtain rfl : gs = [] := by simpa [Vm.control, hend] using hgs
      exact hstack'
  · obtain ⟨-, -, hregion⟩ := hrun.inRegion hsite hflat hin
    exact (hregion (Or.inl heval)).suffix

def handlerPrograms : Host SampleWorld :=
  .primitive [("twice", [.list [sym "with-exception-handler", lambdaOf (.list [sym "x"]) [.int 1],
      lambdaOf .null [.list [sym "display", .list [sym "raise-continuable", quoted (sym "a")]],
        .list [sym "display", .list [sym "raise-continuable", quoted (sym "b")]]]]]),
    ("inside", [.list [sym "guard", .list [sym "e", .list [.bool true, quoted (sym "caught")]],
      .list [sym "with-exception-handler", lambdaOf (.list [sym "x"]) [.int 1],
        lambdaOf .null [.list [sym "display", .list [sym "raise-continuable", quoted (sym "a")]]]],
      .list [sym "raise", quoted (sym "b")]]]),
    ("quiet", [.list [sym "guard", .list [sym "e", .list [.bool true, quoted (sym "caught")]], .int 2]]),
    ("nothing", [])]

theorem handler_lost_after_raise_continuable :
    (eval handlerPrograms 200 "twice" .primitive).map (fun p => (p.1, p.2.store.world.displayed)) =
      some (.error (.internal "unhandled exception: vector"), [.int 1]) ∧
    (eval handlerPrograms 200 "inside" .primitive).map (fun p => (p.1, p.2.store.world.displayed)) =
      some (.error (.internal "unhandled exception: symbol"), [.int 1]) := by
  decide +kernel

def quietGuard : List Op :=
  [.pushHandler 3, .const (.int 2), .popHandler, .jump 3, .defineGlobal "e", .pop, .const (sym "caught")]

lemma formCode_quietGuard : FormCode quietGuard :=
  Or.inl ⟨true, SampleWorld, services handlerPrograms (calls handlerPrograms none 20), 20, 0,
    .list [sym "guard", .list [sym "e", .list [.bool true, quoted (sym "caught")]], .int 2], .ofVm .primitive, _, _, rfl,
    rfl⟩

theorem quiet_guard_keeps_handlers :
    ∃ (f : Frame) (m m' : Vm SampleWorld), Finishes f [] quietGuard m.handlers handlerPrograms m m' ∧
      m'.handlers = m.handlers := by
  obtain ⟨f, m, m₁, m₂, m₃, m', hstart, hflat, hframes, hplaced, h₁, h₂, h₃, h₄, hs, hs₁, hs₂, hs₃, hend⟩ :
      ∃ (f : Frame) (m m₁ m₂ m₃ m' : Vm SampleWorld), Started handlerPrograms m ∧ m.Flat ∧ m.frames = [f] ∧
        Placed m.codePool f.codeId f.ip quietGuard ∧
        step handlerPrograms (calls handlerPrograms none 5) m = some (.ok none, m₁) ∧
        step handlerPrograms (calls handlerPrograms none 5) m₁ = some (.ok none, m₂) ∧
        step handlerPrograms (calls handlerPrograms none 5) m₂ = some (.ok none, m₃) ∧
        step handlerPrograms (calls handlerPrograms none 5) m₃ = some (.ok none, m') ∧
        m.Silent f [] quietGuard ∧ m₁.Silent f [] quietGuard ∧ m₂.Silent f [] quietGuard ∧ m₃.Silent f [] quietGuard ∧
        m'.Evaluated f [] quietGuard :=
    ⟨_, _, _, _, _, _, ⟨none, 20, .eval "nothing", "quiet", .primitive, _, _, _, _, _, ⟨rfl, rfl, rfl, rfl⟩, rfl, rfl,
      ⟨rfl, rfl, rfl, rfl⟩, rfl, rfl⟩, ⟨by decide, rfl⟩, rfl, ⟨_, [], [.ret], rfl, rfl, rfl⟩, rfl, rfl, rfl, rfl,
      ⟨0, _, _, _, rfl, by decide, rfl, rfl, rfl⟩, ⟨1, _, _, _, rfl, by decide, rfl, rfl, rfl⟩,
      ⟨2, _, _, _, rfl, by decide, rfl, rfl, rfl⟩, ⟨3, _, _, _, rfl, by decide, rfl, rfl, rfl⟩, _, rfl⟩
  have hrun : EvalRun f [] quietGuard m.handlers handlerPrograms m m' :=
    .head (hs.turn h₁) (.head (hs₁.turn h₂) (.head (hs₂.turn h₃) (.single (hs₃.turn h₄))))
  have hfin : Finishes f [] quietGuard m.handlers handlerPrograms m m' := .falls hrun hend
  exact ⟨f, m, m', hfin, (handlers_balanced hstart.loaded hflat hframes formCode_quietGuard hplaced).1 m' hfin⟩

end Mae.Scheme
