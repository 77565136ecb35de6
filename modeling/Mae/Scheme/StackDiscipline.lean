import Mae.Scheme.Raise
import Mae.Scheme.Region

/-! What the code of an expression does to the stack. -/

namespace Mae.Scheme

open Library Exec Relation List Option

@[ext] structure Level where
  count : ℕ
  opened : List ℕ
  leaves : Bool

def CountsValues (ops : List Op) : Prop := (∀ name, ¬ [.defineGlobal name, .pop] <:+: ops) ∧ ¬ [.pop, .raise] <:+: ops

def Discipline.counting : Discipline Level where
  val a := { a with count := a.count + 1 }
  opened a := ⟨0, a.count :: a.opened, a.leaves⟩
  exit a := a.opened = [] ∧ a.leaves = true
  entry := ⟨0, [], true⟩
  Allows := CountsValues
  exit_val _ h := h
  exit_entry := ⟨rfl, rfl⟩
  allows_mono hsub h := ⟨fun name hsub' => h.1 name (hsub'.trans hsub), fun hsub' => h.2 (hsub'.trans hsub)⟩
  topLevelGuard name h := absurd infix_rfl (h.1 name)
  bareGuard h := absurd infix_rfl h.2

lemma counting_iterate (k : ℕ) (a : Level) : Discipline.counting.val^[k] a = { a with count := a.count + k } := by
  induction k with
  | zero => rfl
  | succ k ih =>
    rw [Function.iterate_succ_apply', ih]
    rfl

def Reading.counting (leaves exact : Bool) : Reading Discipline.counting where
  counted := True
  Height n n' := n ≤ n' ∧ (exact = true → n = n')
  Since o s a n := (match o with
    | none => a.opened = [] ∧ a.leaves = leaves
    | some c => a.opened = c.count :: c.opened ∧ a.leaves = c.leaves) ∧ s + a.count ≤ n ∧ (exact = true → s + a.count = n)
  height_refl n := ⟨le_rfl, fun _ => rfl⟩
  next {o s c n n'} k j h hlen := by
    rw [counting_iterate] at h ⊢
    obtain ⟨ho, hle, heq⟩ := h
    simp only at hle heq
    obtain ⟨hle', heq'⟩ := hlen (by omega)
    refine ⟨by cases o <;> exact ho, by simp only; omega, fun he => ?_⟩
    have := heq he
    have := heq' he
    simp only
    omega
  opened a n := ⟨⟨rfl, rfl⟩, by simp [Discipline.counting]⟩
  closed {o s c n} h := by
    obtain ⟨ho, hle, heq⟩ := h
    cases o with
    | none => simp [Discipline.counting] at ho
    | some c' =>
      simp only [Discipline.counting, List.cons.injEq] at ho hle heq
      refine ⟨congrArg some (Level.ext ho.1.1.symm ho.1.2.symm ho.2.symm), by omega, fun he => ?_⟩
      have := heq he
      omega
  exit {o s a n} ha h := by
    cases o with
    | none => rfl
    | some c => simp [ha.1] at h
  low {s c n} k _ h := by
    rw [counting_iterate] at h
    have := h.2.1
    simp only at this
    omega
  below {o s c n n'} k h hn := by
    rw [counting_iterate] at h
    have hle := h.2.1
    have hn' := hn trivial
    simp only at hle
    rw [min_eq_left (by omega)]
    exact ⟨le_rfl, fun _ => rfl⟩

namespace Reading

lemma counting_loose : (counting true false).Loose :=
  ⟨fun _ _ h => ⟨h, by simp⟩, fun _ _ h => ⟨⟨rfl, rfl⟩, h, by simp⟩⟩

variable {leaves exact : Bool} {lab : ℕ → Option Level} {codeId depth base n : ℕ} {own : List ExceptionHandler} {a : Level}

section

variable (h : (counting leaves exact).Fits lab codeId depth base own a n)
include h

lemma Fits.count_le : base + a.count ≤ n := by
  induction own generalizing a n with
  | nil => exact h.2.1
  | cons handler own ih =>
    obtain ⟨c, s, hc, hs⟩ := h.since
    have := hc.2.1
    have := ih hs
    omega

lemma Fits.base_le {ip id s d : ℕ} (hmem : .guard ip id s d ∈ own) : base ≤ s := by
  induction own generalizing a n with
  | nil => simp at hmem
  | cons handler own ih =>
    cases handler with
    | closure func =>
      obtain ⟨c, s', -, hs⟩ := h
      exact ih hs (by simpa using hmem)
    | guard ip' id' s' d' =>
      obtain ⟨-, -, c, -, -, hs⟩ := h
      rcases mem_cons.1 hmem with heq | hmem
      · cases heq
        have := hs.count_le
        omega
      · exact ih hs hmem

end

lemma Fits.not_exit (h : (counting false exact).Fits lab codeId depth base own a n) : ¬ Discipline.counting.exit a := by
  intro ha
  obtain rfl := h.exit ha
  have hleaves : a.leaves = false := h.1.2
  simp [ha.2] at hleaves

end Reading

section Slots

variable {pool : List CodeObject} {code : CodeObject} {g : Frame} {gs : List Frame} {st : List Value}
  {hs : List ExceptionHandler} {c' : Control} {low k : ℕ}

lemma getElem?_take_append {n : ℕ} (vs : List Value) (hk : k < n) (hlen : k < st.length) :
    (st.take n ++ vs)[k]? = st[k]? := by
  rw [getElem?_append_left (by rw [length_take]; omega), getElem?_take_of_lt hk]

lemma Op.Effect.slot {op : Op} {st' : List Value} {bp : ℕ} (h : op.Effect bp st st') (htakes : low + op.takes ≤ st.length)
    (hk : k < low) (hstore : ∀ idx, op = .storeLocal idx → k ≠ bp + idx) (hpops : op.takes = op.pops) :
    st'[k]? = st[k]? := by
  rw [hpops] at htakes
  cases op with
  | storeLocal idx =>
    have hdrop : st.dropLast[k]? = st[k]? := by
      rw [dropLast_eq_take, getElem?_take_of_lt]
      simp only [Op.pops] at htakes
      omega
    rcases h with rfl | ⟨v, rfl⟩
    · exact hdrop
    · rw [getElem?_set_ne (hstore idx rfl).symm, getElem?_append_left, hdrop]
      simp only [Op.pops, length_dropLast] at htakes ⊢
      omega
  | _ =>
    obtain ⟨vs, -, rfl⟩ := h (by omega)
    exact getElem?_take_append vs (by omega) (by omega)

lemma Move.slot (hmove : Move pool ⟨st, g :: gs, hs⟩ c') (hk : k < low) (hcode : pool[g.codeId]? = some code)
    (htakes : ∀ op, code.ops[g.ip]? = some op → low + op.takes ≤ st.length)
    (hend : code.ops[g.ip]? = none → low + 1 ≤ st.length)
    (hbp : low ≤ g.bp ∨ ∃ op, code.ops[g.ip]? = some op ∧ op ≠ .ret ∧ ∀ n, op ≠ .tailCall n)
    (hstore : ∀ idx, code.ops[g.ip]? = some (.storeLocal idx) → k ≠ g.bp + idx)
    (hguard : ∀ ip id s d hs', hs = .guard ip id s d :: hs' → g.Raising pool → c'.handlers = hs' → low ≤ s) :
    c'.stack[k]? = st[k]? := by
  have hreturn (v : Value) (hlen : low + 1 ≤ st.length) (hbp : low ≤ g.bp) :
      (st.dropLast.take g.bp ++ [v])[k]? = st[k]? := by
    rw [dropLast_eq_take, take_take]
    exact getElem?_take_append _ (by omega) (by omega)
  generalize hc : Control.mk st (g :: gs) hs = c at hmove
  cases hmove with
  | ret v hcode' hret =>
    cases hc
    obtain rfl := mem_unique hcode hcode'
    cases hop : code.ops[g.ip]? with
    | none =>
      refine hreturn v (hend hop) ?_
      simpa [hop] using hbp
    | some op =>
      obtain rfl := hret op hop
      refine hreturn v (htakes _ hop) ?_
      simpa [hop] using hbp
  | @next _ _ _ _ _ op _ hcode' hop hkind _ heffect | @jump _ _ _ _ _ op _ hcode' hop hkind _ _ heffect =>
    cases hc
    obtain rfl := mem_unique hcode hcode'
    refine heffect.slot (htakes op hop) hk (fun idx h => hstore idx (h ▸ hop)) (Op.takes_eq_pops ?_ ?_)
    · rintro rfl
      cases hkind
    · rintro rfl
      cases hkind
  | opened | closed =>
    cases hc
    rfl
  | installed func hcode' hop =>
    cases hc
    obtain rfl := mem_unique hcode hcode'
    have hlen : low + 1 ≤ st.length := htakes _ hop
    rw [dropLast_eq_take, getElem?_take_of_lt (by omega)]
  | enter args hcode' hop hcall hgip hgbp =>
    cases hc
    obtain rfl := mem_unique hcode hcode'
    have hlen := htakes _ hop
    rw [Op.takes_eq_pops (by rintro rfl; simp at hcall) (by rintro rfl; simp at hcall)] at hlen
    exact getElem?_take_append args (by omega) (by omega)
  | reenter args hcode' hop hgip hgbp =>
    cases hc
    obtain rfl := mem_unique hcode hcode'
    have hlen := htakes _ hop
    have hbp' : low ≤ g.bp := by simpa [hop] using hbp
    exact getElem?_take_append args (by omega) (by omega)
  | @unwind _ _ _ _ _ op _ _ s _ v hcode' hop hraise st' hst =>
    cases hc
    obtain rfl := mem_unique hcode hcode'
    have hlow : low ≤ s := hguard _ _ _ _ _ rfl ⟨code, op, hcode, hop, hraise⟩ rfl
    have hlen : low + op.pops ≤ st.length := by
      rw [← Op.takes_eq_pops (by rintro rfl; cases hraise) (by rintro rfl; cases hraise)]
      exact htakes op hop
    have hslot : st'[k]? = st[k]? := by
      rw [← getElem?_take_of_lt (show k < st.length - op.pops by omega), hst, getElem?_take_of_lt (by omega)]
    have hk' : k < st'.length :=
      (List.getElem?_eq_some_iff.1 (hslot.trans (getElem?_eq_getElem (show k < st.length by omega)))).1
    rw [← hslot]
    exact getElem?_take_append _ (by omega) hk'

end Slots

section Region

variable {W : Type} {host : Host W} {m m' : Vm W} {L : ℕ → List Level} {lab : ℕ → Option Level} {f g : Frame}
  {fs gs : List Frame} {base i n under : ℕ} {rest hs : List ExceptionHandler}

def AboveBase (base : ℕ) (rest hs : List ExceptionHandler) : Prop :=
  ∃ own, hs = own ++ rest ∧ ∀ ip id s d, .guard ip id s d ∈ own → base ≤ s

lemma AboveBase.append {b : ℕ} {own : List ExceptionHandler} (h : AboveBase base rest hs) (hb : base ≤ b)
    (hown : ∀ ip id s d, .guard ip id s d ∈ own → b ≤ s) : AboveBase base rest (own ++ hs) := by
  obtain ⟨own', rfl, hown'⟩ := h
  refine ⟨own ++ own', by simp, fun ip id s d hmem => ?_⟩
  rcases mem_append.1 hmem with hmem | hmem
  · exact hb.trans (hown ip id s d hmem)
  · exact hown' ip id s d hmem

lemma Reading.Waiting.aboveBase
    (h : (counting true false).Waiting L ((counting false true).Resumes lab f fs base rest i) under gs n hs) :
    base + 1 ≤ n ∧ AboveBase base rest hs := by
  induction gs generalizing n hs with
  | nil =>
    obtain ⟨own, b, rfl, -, hfits⟩ := h
    have hle := hfits.count_le
    simp only [Discipline.counting] at hle
    exact ⟨by omega, own, rfl, fun _ _ _ _ => hfits.base_le⟩
  | cons g gs ih =>
    obtain ⟨own, rest', c, rfl, -, hfits, h⟩ := h
    obtain ⟨hle', habove⟩ := ih h
    have hle := hfits.count_le
    simp only [Discipline.counting] at hle
    exact ⟨by omega, habove.append (by omega) fun _ _ _ _ => hfits.base_le⟩

lemma Reading.InRegion.slot {ops : List Op} {ls : List Level} {b : Level} {k : ℕ}
    (hsite : (counting true false).Site (counting false true) L m.codePool f fs ops ls b base) (hm : m.Flat)
    (hturn : CalmTurn rest host m m')
    (h : (counting true false).InRegion (counting false true) L (labelsFrom f.ip (ls ++ [b])) f fs base rest m.control)
    (heval : m.Evaluates f fs ops) (hk : k < base) (hstore : ∀ idx, .storeLocal idx ∈ ops → k ≠ f.bp + idx) :
    m'.stack[k]? = m.stack[k]? := by
  have hmove := (hturn.moves hm).move
  have hguard {g : Frame} {gs : List Frame} (hframes : m.frames = g :: gs) (habove : AboveBase base rest m.handlers) :
      ∀ ip id s d hs', m.handlers = .guard ip id s d :: hs' → g.Raising m.codePool → m'.handlers = hs' → base ≤ s := by
    intro ip id s d hs' hh hop hh'
    obtain ⟨own, hown, hle⟩ := habove
    cases own with
    | nil => exact absurd hh' (hturn.not_fails hm hframes hop hown (hown.symm.trans hh))
    | cons handler own =>
      obtain ⟨rfl, -⟩ := List.cons.inj (hh.symm.trans hown)
      exact hle ip id s d mem_cons_self
  generalize hc : m.control = c at h hmove
  have hst : m.stack = c.stack := congrArg Control.stack hc
  have hframes : m.frames = c.frames := congrArg Control.frames hc
  have hhandlers : m.handlers = c.handlers := congrArg Control.handlers hc
  rw [hst]
  cases h with
  | @here i cells own a st ha hfits =>
    have hi : i < f.ip + ops.length := heval.not_end i cells hframes
    obtain ⟨code, j, op, hcode, hcov, rfl, hj, hop, hop'⟩ := hsite.op_at hi ha
    obtain ⟨⟨b', -, hnext⟩, -⟩ := hcov _ a op hi ha hop'
    refine hmove.slot hk hcode (fun op' h => ?_) (fun h => ?_) (Or.inr ⟨op, hop', ?_, fun n => ?_⟩) (fun idx h => ?_) ?_
    · obtain rfl := mem_unique hop' h
      obtain ⟨c, rfl⟩ := Discipline.counting.next_takes hnext
      have hcount := hfits.count_le
      rw [counting_iterate] at hcount
      simp only at hcount
      omega
    · simp [hop'] at h
    · rintro rfl
      obtain ⟨c, rfl, -, hexit⟩ := hnext
      exact hfits.not_exit hexit
    · rintro rfl
      obtain ⟨c, rfl, -, hexit⟩ := hnext
      exact hfits.not_exit (Discipline.counting.exit_iterate hexit _)
    · obtain rfl := mem_unique hop' h
      exact hstore idx (mem_of_getElem? hop)
    · have hall : AboveBase base rest m.handlers := ⟨own, hhandlers, fun _ _ _ _ => hfits.base_le⟩
      exact fun ip id s d hs' h => hguard hframes hall ip id s d hs' (hhandlers.trans h)
  | @above i cells g gs st hs hrun =>
    obtain ⟨own, rest', a, rfl, ha, hfits, hwait⟩ := hrun
    obtain ⟨hle, habove⟩ := hwait.aboveBase
    have hcount := hfits.count_le
    obtain ⟨code, hcode⟩ := hmove.code_exists
    refine hmove.slot hk hcode (fun op hop => ?_) (fun hop => ?_) (Or.inl (by omega)) (fun idx _ => by omega) ?_
    · obtain ⟨a', b', ha', -, hnext, -⟩ := hsite.labelled.next hcode hop
      obtain rfl : a' = a := mem_unique ha' ha
      obtain ⟨c, rfl⟩ := Discipline.counting.next_takes hnext
      rw [counting_iterate] at hcount
      simp only at hcount
      omega
    · obtain rfl := hsite.labelled.last hcode hop ha
      simp only [Discipline.counting] at hcount
      omega
    · have hall : AboveBase base rest m.handlers := by
        rw [hhandlers]
        exact habove.append (by omega) fun _ _ _ _ => hfits.base_le
      exact fun ip id s d hs' h => hguard hframes hall ip id s d hs' (hhandlers.trans h)

variable {ops : List Op} {ls : List Level}

def Level.start : Level := ⟨0, [], false⟩

lemma counting_site (hL : Discipline.counting.Labelled m.codePool L) (hplaced : Placed m.codePool f.codeId f.ip ops)
    (hls : Discipline.counting.flow.Labels ops ls [Discipline.counting.val .start])
    (hstores : ∀ idx, .storeLocal idx ∈ ops → f.bp + idx < base) :
    (Reading.counting true false).Site (.counting false true) L m.codePool f fs ops ls (Discipline.counting.val .start)
      base where
  loose := Reading.counting_loose
  height n n' hn h := ⟨h.1, fun _ => le_antisymm h.1 hn⟩
  counted := id
  labelled := hL
  placed := hplaced
  labels := hls
  exit a own n hfits hexit := absurd hexit hfits.not_exit
  steady j op a own n hop ha hfits := by
    rintro idx rfl
    obtain ⟨a', b', ha', -, hnext, -⟩ := hls.at_index hop
    obtain rfl : a' = a := mem_unique ha' ha
    obtain rfl : a' = Discipline.counting.val b' := hnext
    have hcount := hfits.count_le
    have hlt := hstores idx (mem_of_getElem? hop)
    simp only [Discipline.counting] at hcount
    exact Or.inl (by omega)

lemma Reading.InRegion.height (hlen : ls.length = ops.length)
    (h : (counting true false).InRegion (counting false true) L
      (labelsFrom f.ip (ls ++ [Discipline.counting.val .start])) f fs base rest m.control)
    (hm : m.Evaluated f fs ops) : m.stack.length = base + 1 := by
  obtain ⟨own, -, hfits⟩ := h.ended hlen hm
  cases own with
  | nil => exact (hfits.2.2 rfl).symm
  | cons handler own =>
    obtain ⟨c, s, hc, -⟩ := hfits.since
    exact absurd hc.1.1 (by simp [Discipline.counting, Level.start])

lemma EvalRun.slot {b : Level} {k : ℕ}
    (hsite : (Reading.counting true false).Site (.counting false true) L m.codePool f fs ops ls b base) (hm : m.Flat)
    (hin : (Reading.counting true false).InRegion (.counting false true) L (labelsFrom f.ip (ls ++ [b])) f fs base rest
      m.control)
    (hrun : EvalRun f fs ops rest host m m') (hk : k < base) (hstore : ∀ idx, .storeLocal idx ∈ ops → k ≠ f.bp + idx) :
    m'.stack[k]? = m.stack[k]? := by
  induction hrun with
  | refl => rfl
  | tail hrun hstep ih =>
    obtain ⟨hpool, hflat, hregion⟩ := EvalRun.inRegion hsite hm hin hrun
    obtain ⟨heval, hturn⟩ := hstep
    rw [← ih]
    exact (hregion (Or.inl heval)).slot (hpool ▸ hsite) hflat hturn heval hk hstore

end Region

variable {W : Type} {host : Host W} {m m' : Vm W} {f : Frame} {fs : List Frame} {ops : List Op}

def arrowOf (test procedure : Value) : Value := .list [sym "cond", .list [test, sym "=>", procedure]]

def argumentPrograms : Host SampleWorld :=
  .primitive [("direct", [.list [sym "if", .bool false, arrowOf (.int 1) (sym "list"), .int 0],
      .list [sym "list", .int 7, arrowOf (.int 5) (lambdaOf (.list [sym "x"]) [sym "x"])]]),
    ("bound", [.list [sym "if", .bool false, arrowOf (.int 1) (sym "list"), .int 0],
      .list [sym "let", .list [.list [sym "t", arrowOf (.int 5) (lambdaOf (.list [sym "x"]) [sym "x"])]],
        .list [sym "list", .int 7, sym "t"]]]),
    ("conditional", [.list [sym "list", .int 1, .list [sym "if", .bool true, .int 2, .int 3]]]),
    ("nothing", [])]

def conditionalOps : List Op := [.const (.bool true), .jumpIfFalse 2, .const (.int 2), .jump 1, .const (.int 3)]

lemma codeOf_conditionalOps : CodeOf false conditionalOps :=
  ⟨SampleWorld, services argumentPrograms (calls argumentPrograms none 20), 20, 0,
    .list [sym "if", .bool true, .int 2, .int 3], .ofVm .primitive, _, _, rfl, rfl⟩

lemma countsValues_of_notMem (hdefine : ∀ name, .defineGlobal name ∉ ops) (hraise : .raise ∉ ops) : CountsValues ops :=
  ⟨fun name h => hdefine name (h.subset mem_cons_self), fun h => hraise (h.subset (by simp))⟩

end Mae.Scheme
