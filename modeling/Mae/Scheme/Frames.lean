import Mae.Scheme.Moves

/-! Frames and the handlers they have opened, read off the labels of their code. -/

namespace Mae.Scheme

open Library List

variable {A : Type} {op : Op} {a b : A} (D : Discipline A)

def Discipline.Covers (lab : ℕ → Option A) (ops : List Op) (stop : ℕ) : Prop :=
  ∀ i a op, i < stop → lab i = some a → ops[i]? = some op →
    (∃ b, lab (i + 1) = some b ∧ D.next op a b) ∧
      ∀ off, op.offset? = some off → ∃ n : ℕ, off = n ∧ ∃ c, lab (i + 1 + n) = some c ∧ D.jump op a c

def Frame.Raising (pool : List CodeObject) (f : Frame) : Prop :=
  ∃ code op, pool[f.codeId]? = some code ∧ code.ops[f.ip]? = some op ∧ op.raises = true

structure Reading {A : Type} (D : Discipline A) where
  counted : Prop
  Height : ℕ → ℕ → Prop
  Since : Option A → ℕ → A → ℕ → Prop
  height_refl : ∀ n, Height n n
  next : ∀ {o s c n n'} k j, Since o s (D.val^[k] c) n → (k ≤ n → Height (n + j) (n' + k)) → Since o s (D.val^[j] c) n'
  opened : ∀ a n, Since (some a) n (D.opened a) n
  closed : ∀ {o s c n}, Since o s (D.val (D.opened c)) n → o = some c ∧ Height (s + 1) n
  exit : ∀ {o s a n}, D.exit a → Since o s a n → o = none
  low : ∀ {s c n} k, counted → Since none s (D.val^[k] c) n → s + k ≤ n
  below : ∀ {o s c n n'} k, Since o s (D.val^[k] c) n → (counted → n ≤ n' + k) → Height (s + 1) (min s n' + 1)

namespace Reading

variable {A : Type} {D : Discipline A} (R : Reading D)

def Fits (lab : ℕ → Option A) (codeId depth base : ℕ) : List ExceptionHandler → A → ℕ → Prop
  | [], a, n => R.Since none base a n
  | .guard ip id s d :: hs, a, n =>
    id = codeId ∧ d = depth ∧ ∃ c, R.Since (some c) s a n ∧ lab ip = some (D.val c) ∧ Fits lab codeId depth base hs c s
  | .closure _ :: hs, a, n => ∃ c s, R.Since (some c) s a n ∧ Fits lab codeId depth base hs c s

variable {R} {lab : ℕ → Option A} {codeId depth base n n' k : ℕ} {hs : List ExceptionHandler} {a b c : A} {op : Op}

lemma Fits.next (k j : ℕ) (h : R.Fits lab codeId depth base hs (D.val^[k] c) n)
    (hlen : k ≤ n → R.Height (n + j) (n' + k)) : R.Fits lab codeId depth base hs (D.val^[j] c) n' := by
  cases hs with
  | nil => exact R.next k j h hlen
  | cons handler hs =>
    cases handler with
    | closure func =>
      obtain ⟨c', s, hc, hs⟩ := h
      exact ⟨c', s, R.next k j hc hlen, hs⟩
    | guard ip id s d =>
      obtain ⟨hid, hd, c', hc, hip, hs⟩ := h
      exact ⟨hid, hd, c', R.next k j hc hlen, hip, hs⟩

lemma Fits.push (h : R.Fits lab codeId depth base hs a n) (hlen : R.Height (n + 1) n') :
    R.Fits lab codeId depth base hs (D.val a) n' :=
  h.next 0 1 fun _ => hlen

lemma Fits.pop (h : R.Fits lab codeId depth base hs (D.val a) n) : R.Fits lab codeId depth base hs a (n - 1) :=
  h.next 1 0 fun hn => by
    rw [Nat.sub_add_cancel hn]
    exact R.height_refl n

lemma Fits.height (h : R.Fits lab codeId depth base hs a n) (hlen : R.Height n n') :
    R.Fits lab codeId depth base hs a n' :=
  h.next 0 0 fun _ => hlen

lemma Fits.since {handler : ExceptionHandler} (h : R.Fits lab codeId depth base (handler :: hs) a n) :
    ∃ c s, R.Since (some c) s a n ∧ R.Fits lab codeId depth base hs c s := by
  cases handler with
  | closure func => exact h
  | guard ip id s d =>
    obtain ⟨-, -, c, hc, -, hs⟩ := h
    exact ⟨c, s, hc, hs⟩

lemma Fits.closed (h : R.Fits lab codeId depth base hs (D.val (D.opened c)) n) :
    R.Fits lab codeId depth base hs.tail (D.val c) n ∧ hs ≠ [] := by
  cases hs with
  | nil => simpa using (R.closed h).1
  | cons handler hs =>
    obtain ⟨c', s, hc, hs⟩ := h.since
    obtain ⟨ho, hlen⟩ := R.closed hc
    obtain rfl : c' = c := by simpa using ho
    exact ⟨hs.push hlen, by simp⟩

lemma Fits.exit (h : R.Fits lab codeId depth base hs a n) (ha : D.exit a) : hs = [] := by
  cases hs with
  | nil => rfl
  | cons handler hs =>
    obtain ⟨c, s, hc, -⟩ := h.since
    simpa using R.exit ha hc

lemma Fits.below (h : R.Fits lab codeId depth base [] (D.val^[k] c) n) (hn : R.counted → n ≤ n' + k) :
    R.Height (base + 1) (min base n' + 1) :=
  R.below k h hn

variable (R lab) in
inductive Outcome (pool : List CodeObject) (base : ℕ) (f : Frame) (fs : List Frame) (a : A)
    (own rest : List ExceptionHandler) : Control → Prop
  | stays (cells : List (ℕ × ℕ)) (hs : List ExceptionHandler) {i b st'} (hb : lab i = some b)
      (hfits : R.Fits lab f.codeId (fs.length + 1) base hs b st'.length) :
      Outcome pool base f fs a own rest ⟨st', { f with ip := i, localCells := cells } :: fs, hs ++ rest⟩
  | calls {i g hs b st'} (hip : g.ip = 0) (hbp : g.bp ≤ st'.length) (hb : lab i = some (D.val b))
      (hfits : R.Fits lab f.codeId (fs.length + 1) base hs (D.val b) (g.bp + 1)) :
      Outcome pool base f fs a own rest ⟨st', g :: { f with ip := i } :: fs, hs ++ rest⟩
  | replaced {g st'} (hexit : D.exit a) (hip : g.ip = 0) (hbp : g.bp ≤ st'.length) (hle : g.bp + 1 ≤ f.bp + 1)
      (hlen : R.Height (f.bp + 1) (g.bp + 1)) : Outcome pool base f fs a own rest ⟨st', g :: fs, rest⟩
  | returns {st'} (hexit : D.exit a) (hle : st'.length ≤ f.bp + 1) (hlen : R.Height (f.bp + 1) st'.length) :
      Outcome pool base f fs a own rest ⟨st', fs, rest⟩
  | fails {st' : List Value} {v ip id s d hs} (hop : f.Raising pool) (hown : own = [])
      (hrest : rest = .guard ip id s d :: hs) (hlow : R.counted → base ≤ st'.length) :
      Outcome pool base f fs a own rest ⟨st'.take s ++ [v], unwound ip id d ({ f with ip := f.ip + 1 } :: fs), hs⟩

end Reading

lemma Discipline.exit_iterate {c : A} (h : D.exit c) (k : ℕ) : D.exit (D.val^[k] c) := by
  induction k with
  | zero => exact h
  | succ k ih =>
    rw [Function.iterate_succ_apply']
    exact D.exit_val _ ih

lemma Discipline.next_of_fallsThrough {D : Discipline A} (hop : op.fallsThrough = true) (h : D.next op a b) :
    ∃ c, a = D.val^[op.pops] c ∧ b = D.val^[op.pushes] c := by
  cases op with
  | jump | ret | raise | pushHandler | popHandler | pushClosureHandler | popClosureHandler => simp [Op.fallsThrough] at hop
  | values | callWithValues => exact h.elim
  | call | dup | yield | apply => exact h
  | tailCall =>
    obtain ⟨c, ha, hb, -⟩ := h
    exact ⟨c, ha, hb⟩
  | captureCc | eval | load =>
    obtain ⟨c, ha, hb⟩ := h
    exact ⟨D.val c, ha, hb⟩
  | const | loadGlobal | loadLocal | loadUpvalue | makeClosure => exact ⟨a, rfl, h⟩
  | storeGlobal | defineGlobal | storeLocal | storeUpvalue | jumpIfFalse | pop | pushWinder => exact ⟨b, h, rfl⟩
  | popWinder | nop => exact ⟨a, rfl, h.symm⟩

lemma Discipline.jump_of_branches {D : Discipline A} (hop : op.branches = true) (h : D.jump op a b) :
    a = D.val^[op.pops] b := by
  cases op with
  | jump => exact h.symm
  | jumpIfFalse => exact h
  | _ => simp [Op.branches] at hop

def Op.takes : Op → ℕ
  | .ret => 1
  | .pushClosureHandler => 1
  | op => op.pops

lemma Op.takes_eq_pops (hret : op ≠ .ret) (hpush : op ≠ .pushClosureHandler) : op.takes = op.pops := by
  cases op <;> first | rfl | contradiction

lemma Discipline.next_takes (h : D.next op a b) : ∃ c, a = D.val^[op.takes] c := by
  cases op with
  | ret | pushClosureHandler | call | tailCall | raise | dup | yield | apply =>
    obtain ⟨c, hc, -⟩ := h
    exact ⟨c, hc⟩
  | storeGlobal | defineGlobal | storeLocal | storeUpvalue | jumpIfFalse | pop | pushWinder => exact ⟨b, h⟩
  | _ => exact ⟨a, rfl⟩

lemma Discipline.next_of_raises {D : Discipline A} (hop : op.raises = true) (h : D.next op a b) :
    ∃ c, a = D.val^[op.pops] c := by
  rw [← Op.takes_eq_pops (by rintro rfl; cases hop) (by rintro rfl; cases hop)]
  exact D.next_takes h

lemma unwound_append (ip id : ℕ) (gs : List Frame) (g : Frame) (fs : List Frame) :
    unwound ip id (fs.length + 1) (gs ++ g :: fs) = { g with ip := ip, codeId := id } :: fs := by
  simp [unwound]

lemma unwound_self (ip : ℕ) (f : Frame) (fs : List Frame) :
    unwound ip f.codeId (fs.length + 1) ({ f with ip := f.ip + 1 } :: fs) = { f with ip := ip } :: fs := by
  simp [unwound]

lemma jumpTarget_natCast (i n : ℕ) : Vm.jumpTarget i n = i + n := by
  unfold Vm.jumpTarget
  split <;> omega

namespace Reading

variable {A : Type} {D : Discipline A} {R : Reading D} {lab : ℕ → Option A} {pool : List CodeObject} {code : CodeObject}
  {stop : ℕ} {f : Frame} {fs : List Frame} {st : List Value} {hs rest : List ExceptionHandler} {a : A} {c' : Control}

structure Loose (R : Reading D) : Prop where
  height : ∀ n n', n ≤ n' → R.Height n n'
  entry : ∀ s n, s ≤ n → R.Since none s D.entry n

def Steady (R : Reading D) (f : Frame) (n : ℕ) (op : Op) : Prop :=
  ∀ idx, op = .storeLocal idx → f.bp + idx + 1 < n ∨ ∀ n n', n ≤ n' → R.Height n n'

lemma height_of_effect {op : Op} {st' : List Value} (hsteady : R.Steady f st.length op) (h : op.Effect f.bp st st')
    (hpops : op.pops ≤ st.length) : R.Height (st.length + op.pushes) (st'.length + op.pops) := by
  have heq (hlen : st.length + op.pushes = st'.length + op.pops) : R.Height (st.length + op.pushes) (st'.length + op.pops) :=
    hlen ▸ R.height_refl _
  cases op with
  | storeLocal idx =>
    rcases h with rfl | ⟨v, rfl⟩
    · refine heq ?_
      simp only [Op.pushes, Op.pops, length_dropLast] at hpops ⊢
      omega
    · simp only [Op.pushes, Op.pops, length_set, length_append, length_replicate, length_dropLast] at hpops heq ⊢
      rcases hsteady idx rfl with hlt | hle
      · exact heq (by omega)
      · exact hle _ _ (by omega)
  | _ =>
    obtain ⟨vs, hvs, rfl⟩ := h hpops
    refine heq ?_
    rw [length_append, length_take]
    omega

lemma Fits.outcome (hcov : D.Covers lab code.ops stop) (hcode : pool[f.codeId]? = some code) (hip : f.ip < stop)
    (ha : lab f.ip = some a) {base : ℕ} (hfits : R.Fits lab f.codeId (fs.length + 1) base hs a st.length)
    (hbase : D.exit a → base = f.bp) (hop : ∃ op, code.ops[f.ip]? = some op ∧ R.Steady f st.length op)
    (hmove : Move pool ⟨st, f :: fs, hs ++ rest⟩ c') : R.Outcome lab pool base f fs a hs rest c' := by
  obtain ⟨op, hop, hsteady⟩ := hop
  obtain ⟨⟨b, hb, hnext⟩, hjump⟩ := hcov f.ip a op hip ha hop
  have hfetch {code' : CodeObject} {op' : Op} (hcode' : pool[f.codeId]? = some code')
      (hop' : code'.ops[f.ip]? = some op') : op = op' := by
    obtain rfl := Option.mem_unique hcode hcode'
    exact Option.mem_unique hop hop'
  generalize hall : hs ++ rest = all at hmove
  cases hmove with
  | ret v hcode' hret =>
    obtain rfl := Option.mem_unique hcode hcode'
    obtain rfl := hret op hop
    obtain ⟨c, rfl, -, hexit⟩ := hnext
    obtain rfl := hfits.exit (D.exit_val c hexit)
    obtain rfl := hbase (D.exit_val c hexit)
    subst hall
    refine .returns (D.exit_val c hexit) ?_ ?_
    · rw [length_append, length_take, length_singleton]
      omega
    · rw [length_append, length_take, length_singleton]
      exact hfits.below (k := 1) fun _ => by simp; omega
  | next hcode' hop' hfall heffect =>
    obtain rfl := hfetch hcode' hop'
    obtain ⟨c, rfl, rfl⟩ := Discipline.next_of_fallsThrough hfall hnext
    subst hall
    exact .stays _ _ hb (hfits.next _ _ (height_of_effect hsteady heffect))
  | jump hcode' hop' hbranch hoff heffect =>
    obtain rfl := hfetch hcode' hop'
    obtain ⟨n, rfl, c, hc, hj⟩ := hjump _ hoff
    obtain rfl := Discipline.jump_of_branches hbranch hj
    subst hall
    rw [jumpTarget_natCast]
    refine .stays f.localCells _ hc (hfits.next _ 0 fun hpops => ?_)
    have hheight := height_of_effect hsteady heffect hpops
    rwa [show op.pushes = 0 by cases op <;> simp_all [Op.branches, Op.pushes]] at hheight
  | opened hcode' hop' =>
    obtain rfl := hfetch hcode' hop'
    obtain ⟨n, rfl, c, hc, rfl⟩ := hjump _ rfl
    obtain rfl : b = D.opened a := hnext
    subst hall
    rw [jumpTarget_natCast]
    refine .stays f.localCells (.guard (f.ip + 1 + n) f.codeId st.length (fs.length + 1) :: hs) hb ?_
    exact ⟨rfl, rfl, a, R.opened a st.length, hc, hfits⟩
  | installed func hcode' hop' =>
    obtain rfl := hfetch hcode' hop'
    obtain ⟨c, rfl, rfl⟩ := hnext
    subst hall
    refine .stays f.localCells (.closure func :: hs) hb ?_
    rw [length_dropLast]
    exact ⟨c, st.length - 1, R.opened c _, hfits.pop⟩
  | closed hcode' hop' hclose =>
    obtain rfl := hfetch hcode' hop'
    obtain ⟨c, rfl, rfl⟩ : ∃ c, a = D.val (D.opened c) ∧ b = D.val c := by rcases hclose with rfl | rfl <;> exact hnext
    obtain ⟨htail, hne⟩ := hfits.closed
    subst hall
    rw [tail_append_of_ne_nil hne]
    exact .stays f.localCells _ hb htail
  | enter args hcode' hop' hcall hgip hgbp =>
    obtain rfl := hfetch hcode' hop'
    have hfall : op.fallsThrough = true := by rcases hcall with ⟨n, rfl⟩ | rfl <;> rfl
    have hpush : op.pushes = 1 := by rcases hcall with ⟨n, rfl⟩ | rfl <;> rfl
    obtain ⟨c, rfl, rfl⟩ := Discipline.next_of_fallsThrough hfall hnext
    rw [hpush] at hb
    subst hall
    refine .calls (b := c) hgip ?_ hb (hfits.next _ 1 fun hpops => ?_)
    · rw [hgbp, length_append, length_take]
      omega
    · rw [hgbp, show st.length - op.pops + 1 + op.pops = st.length + 1 by omega]
      exact R.height_refl _
  | reenter args hcode' hop' hgip hgbp =>
    obtain rfl := hfetch hcode' hop'
    obtain ⟨c, rfl, -, hexit⟩ := hnext
    have hexit' := D.exit_iterate hexit
    obtain rfl := hfits.exit (hexit' _)
    obtain rfl := hbase (hexit' _)
    subst hall
    refine .replaced (hexit' _) hgip ?_ ?_ ?_
    · rw [hgbp, length_append]
      omega
    · rw [hgbp, length_take]
      omega
    · rw [hgbp, length_take]
      exact hfits.below fun _ => Nat.le_add_right _ _
  | unwind v hcode' hop' hraise hst =>
    obtain rfl := hfetch hcode' hop'
    obtain ⟨c0, rfl⟩ := Discipline.next_of_raises hraise hnext
    have hlen := congrArg List.length hst
    simp only [length_take] at hlen
    cases hs with
    | nil =>
      refine .fails ⟨code, op, hcode, hop, hraise⟩ rfl hall fun hcounted => ?_
      have hlow := R.low _ hcounted hfits
      omega
    | cons handler hs =>
      cases hall
      obtain ⟨rfl, rfl, c, hc, hlab, hfits⟩ := hfits
      rw [unwound_self]
      refine .stays f.localCells _ hlab (hfits.push ?_)
      rw [length_append, length_take, length_singleton]
      exact R.below _ hc fun _ => by omega

section Stack

variable (R) (L : ℕ → List A) (bottom : ℕ → List ExceptionHandler → Prop) (under : ℕ)

def Waiting : List Frame → ℕ → List ExceptionHandler → Prop
  | [], n, hs => bottom n hs
  | f :: fs, n, hs => ∃ own rest c, hs = own ++ rest ∧ (L f.codeId)[f.ip]? = some (D.val c) ∧
      R.Fits (fun i => (L f.codeId)[i]?) f.codeId (fs.length + under + 1) f.bp own (D.val c) n ∧
      Waiting fs (f.bp + 1) rest

def Running (f : Frame) (fs : List Frame) (n : ℕ) (hs : List ExceptionHandler) : Prop :=
  ∃ own rest a, hs = own ++ rest ∧ (L f.codeId)[f.ip]? = some a ∧
    R.Fits (fun i => (L f.codeId)[i]?) f.codeId (fs.length + under + 1) f.bp own a n ∧ R.Waiting L bottom under fs (f.bp + 1) rest

def Stacked (base : List Frame) (c : Control) : Prop :=
  ∃ fs, c.frames = fs ++ base ∧ match fs with
    | [] => bottom c.stack.length c.handlers
    | f :: fs => R.Running L bottom base.length f fs c.stack.length c.handlers

variable {R L bottom under}

lemma Waiting.height {n n' : ℕ} (hbottom : ∀ n n' hs, n' ≤ n → bottom n hs → R.Height n n' → bottom n' hs)
    (h : R.Waiting L bottom under fs n hs) (hle : n' ≤ n) (hlen : R.Height n n') : R.Waiting L bottom under fs n' hs := by
  cases fs with
  | nil => exact hbottom _ _ _ hle h hlen
  | cons f fs =>
    obtain ⟨own, rest, c, rfl, hc, hfits, h⟩ := h
    exact ⟨own, rest, c, rfl, hc, hfits.height hlen, h⟩

lemma Waiting.stacked {base : List Frame} (h : R.Waiting L bottom base.length fs st.length hs) :
    R.Stacked L bottom base ⟨st, fs ++ base, hs⟩ := by
  refine ⟨fs, rfl, ?_⟩
  cases fs with
  | nil => exact h
  | cons f fs =>
    obtain ⟨own, rest, c, hhs, hc, hfits, h⟩ := h
    exact ⟨own, rest, D.val c, hhs, hc, hfits, h⟩

lemma Waiting.exists_bottom {n : ℕ} (h : R.Waiting L bottom under fs n hs) : ∃ n' hs', bottom n' hs' ∧ hs' <:+ hs := by
  induction fs generalizing n hs with
  | nil => exact ⟨n, hs, h, suffix_rfl⟩
  | cons f fs ih =>
    obtain ⟨own, rest, c, rfl, -, -, h⟩ := h
    obtain ⟨n', hs', hb, hsuf⟩ := ih h
    exact ⟨n', hs', hb, hsuf.trans (suffix_append own rest)⟩

lemma Running.exists_bottom {n : ℕ} (h : R.Running L bottom under f fs n hs) : ∃ n' hs', bottom n' hs' ∧ hs' <:+ hs := by
  obtain ⟨own, rest, a, rfl, -, -, h⟩ := h
  obtain ⟨n', hs', hb, hsuf⟩ := h.exists_bottom
  exact ⟨n', hs', hb, hsuf.trans (suffix_append own rest)⟩

lemma Waiting.unwind (base : List Frame) {n n' ip id s d : ℕ}
    (h : R.Waiting L bottom base.length fs n (.guard ip id s d :: hs)) (hn : R.counted → n ≤ n' + 1) :
    (∃ gs g fs', fs = gs ++ g :: fs' ∧ id = g.codeId ∧ d = (fs' ++ base).length + 1 ∧
      R.Running L bottom base.length { g with ip := ip } fs' (min s n' + 1) hs) ∨
    ∃ n₀, bottom n₀ (.guard ip id s d :: hs) ∧ (R.counted → n₀ ≤ n' + 1) := by
  induction fs generalizing n with
  | nil => exact Or.inr ⟨n, h, hn⟩
  | cons f fs ih =>
    obtain ⟨own, rest, c, hhs, hc, hfits, h⟩ := h
    cases own with
    | nil =>
      obtain rfl : _ = rest := hhs
      have hlow (hcounted : R.counted) : f.bp + 1 ≤ n' + 1 := (R.low 1 hcounted hfits).trans (hn hcounted)
      obtain ⟨gs, g, fs', rfl, hg⟩ | hbottom := ih h hlow
      · exact Or.inl ⟨f :: gs, g, fs', rfl, hg⟩
      · exact Or.inr hbottom
    | cons handler own =>
      cases hhs
      obtain ⟨rfl, rfl, c', hc', hlab, hfits⟩ := hfits
      refine Or.inl ⟨[], f, fs, rfl, rfl, by simp, own, rest, D.val c', rfl, hlab, hfits.push ?_, h⟩
      exact R.below 1 hc' hn

end Stack

section Moves

variable {L : ℕ → List A} {bottom : ℕ → List ExceptionHandler → Prop} {base : List Frame}

lemma covers_of_labelled (hL : D.Labelled pool L) {id : ℕ} (hcode : pool[id]? = some code) :
    D.Covers (fun i => (L id)[i]?) code.ops code.ops.length := by
  intro i a op _ ha hop
  obtain ⟨a', b, ha', hb, hnext, hjump⟩ := hL.next hcode hop
  obtain rfl : a' = a := Option.mem_unique ha' ha
  exact ⟨⟨b, hb, hnext⟩, hjump⟩

lemma running_entry (hL : D.Labelled pool L) (hR : R.Loose) (hip : f.ip = 0) {n : ℕ}
    (hbp : f.bp ≤ n) {under : ℕ} (h : R.Waiting L bottom under fs (f.bp + 1) hs) : R.Running L bottom under f fs n hs := by
  refine ⟨[], hs, D.entry, rfl, ?_, hR.entry _ _ hbp, h⟩
  rw [hip]
  exact (hL f.codeId).1

variable (R bottom pool) in
def Escapes (f : Frame) (base : List Frame) (hs : List ExceptionHandler) (c' : Control) : Prop :=
  ∃ (n₀ : ℕ) (st' : List Value) (v : Value) (ip id s d : ℕ) (hs' : List ExceptionHandler) (fs : List Frame),
    f.Raising pool ∧ bottom n₀ hs ∧ hs = .guard ip id s d :: hs' ∧ (R.counted → n₀ ≤ st'.length + 1) ∧
      c' = ⟨st'.take s ++ [v], unwound ip id d (fs ++ base), hs'⟩

lemma Waiting.fails {n ip id s d : ℕ} (h : R.Waiting L bottom base.length fs n (.guard ip id s d :: hs)) (v : Value)
    (hn : R.counted → n ≤ st.length + 1) (hf : f.Raising pool) :
    let c' : Control := ⟨st.take s ++ [v], unwound ip id d ({ f with ip := f.ip + 1 } :: fs ++ base), hs⟩
    R.Stacked L bottom base c' ∨ R.Escapes pool bottom f base (.guard ip id s d :: hs) c' := by
  obtain ⟨gs, g, fs', rfl, rfl, rfl, hrun⟩ | ⟨n0, hb, hn0⟩ := h.unwind base hn
  · have hframes : { f with ip := f.ip + 1 } :: (gs ++ g :: fs') ++ base =
        ({ f with ip := f.ip + 1 } :: gs) ++ g :: (fs' ++ base) := by simp
    rw [hframes, unwound_append]
    refine Or.inl ⟨{ g with ip := ip } :: fs', rfl, ?_⟩
    simpa [min_comm] using hrun
  · exact Or.inr ⟨n0, st, v, ip, id, s, d, hs, { f with ip := f.ip + 1 } :: fs, hf, hb, rfl, hn0, rfl⟩

variable (base) in
lemma Running.move (hL : D.Labelled pool L) (hR : R.Loose)
    (hbottom : ∀ n n' hs, n' ≤ n → bottom n hs → R.Height n n' → bottom n' hs)
    (h : R.Running L bottom base.length f fs st.length hs) (hmove : Move pool ⟨st, f :: (fs ++ base), hs⟩ c') :
    R.Stacked L bottom base c' ∨ R.Escapes pool bottom f base hs c' := by
  obtain ⟨own, rest, a, rfl, ha, hfits, hwait⟩ := h
  obtain ⟨code, hcode⟩ := hmove.code_exists
  rw [← length_append] at hfits
  cases hop : code.ops[f.ip]? with
  | none =>
    obtain rfl : a = D.val D.entry := hL.last hcode hop ha
    obtain rfl := hfits.exit (D.exit_val _ D.exit_entry)
    obtain ⟨v, rfl⟩ := hmove.at_end hcode hop
    refine Or.inl (Waiting.stacked (hwait.height hbottom ?_ ?_))
    · rw [length_append, length_take, length_singleton]
      omega
    · rw [length_append, length_take]
      exact hfits.below (k := 1) fun _ => by simp; omega
  | some op =>
    have hlt : f.ip < code.ops.length := (List.getElem?_eq_some_iff.1 hop).1
    have hsteady : R.Steady f st.length op := fun _ _ => Or.inr hR.height
    have hout := hfits.outcome (covers_of_labelled hL hcode) hcode hlt ha (fun _ => rfl) ⟨op, hop, hsteady⟩ hmove
    cases hout with
    | stays cells hs hb hfits' =>
      rw [length_append] at hfits'
      exact Or.inl ⟨_ :: fs, rfl, _, rest, _, rfl, hb, hfits', hwait⟩
    | calls hip hbp hb hfits' =>
      rw [length_append] at hfits'
      exact Or.inl ⟨_ :: _ :: fs, rfl, running_entry hL hR hip hbp ⟨_, rest, _, rfl, hb, hfits', hwait⟩⟩
    | replaced hexit hip hbp hle' hlen =>
      exact Or.inl ⟨_ :: fs, rfl, running_entry hL hR hip hbp (hwait.height hbottom hle' hlen)⟩
    | returns hexit hle' hlen => exact Or.inl (Waiting.stacked (hwait.height hbottom hle' hlen))
    | fails hraising hown hrest hlow =>
      subst hown hrest
      exact hwait.fails _ (fun hcounted => Nat.succ_le_succ (hlow hcounted)) hraising

end Moves

end Reading

end Mae.Scheme
