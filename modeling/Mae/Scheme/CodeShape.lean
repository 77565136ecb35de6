import Mathlib.Data.List.ModifyLast
import Mae.Library.Labelling
import Mae.Scheme.Compiler

/-! The shape of compiled code: every form leaves one value, jumps only within its own code, and closes the handlers it
opens; and what the compiler does to its state apart from the code it emits. -/

namespace Mae.Scheme

open Library Exec List

structure Discipline (A : Type) where
  val : A → A
  opened : A → A
  exit : A → Prop
  entry : A
  Allows : List Op → Prop
  exit_val : ∀ a, exit a → exit (val a)
  exit_entry : exit entry
  allows_mono : ∀ {xs ys}, xs <:+: ys → Allows ys → Allows xs
  topLevelGuard : ∀ name, Allows [.defineGlobal name, .pop] → ∀ a, val a = a
  bareGuard : Allows [.pop, .raise] → ∀ a, val a = a

def Discipline.nesting : Discipline ℕ where
  val := id
  opened := Nat.succ
  exit k := k = 0
  entry := 0
  Allows _ := True
  exit_val _ h := h
  exit_entry := rfl
  allows_mono _ h := h
  topLevelGuard _ _ _ := rfl
  bareGuard _ _ := rfl

def Op.offset? : Op → Option Int
  | .jump off => some off
  | .jumpIfFalse off => some off
  | .pushHandler off => some off
  | _ => none

namespace Discipline

variable {A : Type} (D : Discipline A)

def next : Op → A → A → Prop
  | .const _, a, b => b = D.val a
  | .loadGlobal _, a, b => b = D.val a
  | .storeGlobal _, a, b => a = D.val b
  | .defineGlobal _, a, b => a = D.val b
  | .loadLocal _, a, b => b = D.val a
  | .storeLocal _, a, b => a = D.val b
  | .loadUpvalue _, a, b => b = D.val a
  | .storeUpvalue _, a, b => a = D.val b
  | .call n, a, b => ∃ c, a = D.val^[n + 1] c ∧ b = D.val c
  | .tailCall n, a, b => ∃ c, a = D.val^[n + 1] c ∧ b = D.val c ∧ D.exit c
  | .ret, a, b => ∃ c, a = D.val c ∧ b = D.val c ∧ D.exit c
  | .jump _, _, _ => True
  | .jumpIfFalse _, a, b => a = D.val b
  | .pop, a, b => a = D.val b
  | .dup, a, b => ∃ c, a = D.val c ∧ b = D.val (D.val c)
  | .makeClosure _ _, a, b => b = D.val a
  | .captureCc, a, b => ∃ c, a = D.val c ∧ b = D.val (D.val c)
  | .yield, a, b => ∃ c, a = D.val c ∧ b = D.val c
  | .apply, a, b => ∃ c, a = D.val (D.val c) ∧ b = D.val c
  | .values, _, _ => False
  | .callWithValues, _, _ => False
  | .pushHandler _, a, b => b = D.opened a
  | .popHandler, a, b => ∃ c, a = D.val (D.opened c) ∧ b = D.val c
  | .raise, a, b => ∃ c, a = D.val c ∧ b = D.val c
  | .eval, a, b => ∃ c, a = D.val c ∧ b = D.val c
  | .load, a, b => ∃ c, a = D.val c ∧ b = D.val c
  | .pushWinder, a, b => a = D.val (D.val b)
  | .popWinder, a, b => a = b
  | .pushClosureHandler, a, b => ∃ c, a = D.val c ∧ b = D.opened c
  | .popClosureHandler, a, b => ∃ c, a = D.val (D.opened c) ∧ b = D.val c
  | .nop, a, b => a = b

def jump : Op → A → A → Prop
  | .jump _, a, b => b = a
  | .jumpIfFalse _, a, b => a = D.val b
  | .pushHandler _, a, b => b = D.val a
  | _, _, _ => False

def flow : Flow Op A := ⟨D.next, Op.offset?, D.jump⟩

def Emits (tail : Bool) (ops : List Op) : Prop :=
  ∀ a, (tail = true → D.exit a) → D.Allows ops → D.flow.Segment a ops (D.val a)

def Handles (tail : Bool) (ops : List Op) : Prop :=
  ∀ a, (tail = true → D.exit a) → D.Allows (.pop :: ops) → D.flow.Segment a ops (D.val a)

def Leaves (n : ℕ) (ops : List Op) : Prop := ∀ a, D.Allows ops → D.flow.Segment a ops (D.val^[n] a)

def CodeOk (code : CodeObject) : Prop := D.Allows code.ops → D.flow.Segment D.entry code.ops (D.val D.entry)

variable {D} {tail : Bool} {xs ys : List Op} {op : Op} {a b c : A}

lemma Allows.left (h : D.Allows (xs ++ ys)) : D.Allows xs := D.allows_mono (prefix_append xs ys).isInfix h

lemma Allows.right (h : D.Allows (xs ++ ys)) : D.Allows ys := D.allows_mono (suffix_append xs ys).isInfix h

lemma Allows.rest (h : D.Allows (op :: xs)) : D.Allows xs := D.allows_mono (suffix_cons op xs).isInfix h

lemma segment_single (h : D.next op a b) (ho : op.offset? = none) : D.flow.Segment a [op] b := .cons h ho (.nil b)

lemma segment_test (hx : D.flow.Segment a xs b) (hy : D.flow.Segment a ys b) :
    D.flow.Segment (D.val a) (.jumpIfFalse (xs.length + 1) :: xs ++ .jump ys.length :: ys) b :=
  .branch rfl rfl rfl hx trivial rfl rfl hy

lemma segment_unless (hy : D.flow.Segment a ys (D.val a)) :
    D.flow.Segment (D.val a) ([.dup, .jumpIfFalse 1, .jump (ys.length + 1), .pop] ++ ys) (D.val a) := by
  have hpop : D.flow.Segment (D.val a) (.pop :: ys) (D.val a) := .cons rfl rfl hy
  have hbranch : D.flow.Segment (D.val (D.val a)) (.jumpIfFalse 1 :: [] ++ .jump (ys.length + 1) :: .pop :: ys)
      (D.val a) :=
    .branch rfl rfl rfl (.nil _) trivial (by simp [flow, Op.offset?]) rfl hpop
  exact .cons ⟨a, rfl, rfl⟩ rfl hbranch

lemma emits_push (h : ∀ a, D.next op a (D.val a)) (ho : op.offset? = none) : D.Emits tail [op] :=
  fun a _ _ => segment_single (h a) ho

lemma emits_const (v : Value) : D.Emits tail [.const v] := emits_push (fun _ => rfl) rfl

lemma Emits.of_false (h : D.Emits false xs) : D.Emits tail xs := fun a _ hx => h a (by simp) hx

lemma Emits.leaves (h : D.Emits false xs) : D.Leaves 1 xs := fun a hx => h a (by simp) hx

lemma Leaves.append {m n : ℕ} (hx : D.Leaves m xs) (hy : D.Leaves n ys) : D.Leaves (m + n) (xs ++ ys) := by
  intro a h
  have hxy := (hx a h.left).append (hy _ h.right)
  rwa [← Function.iterate_add_apply, Nat.add_comm] at hxy

lemma leaves_nil : D.Leaves 0 [] := fun a _ => .nil a

variable {cs ts es ps rest : List Op}

section

variable (hc : D.Emits false cs)
include hc

lemma Emits.test (ht : D.Emits tail ts) (he : D.Emits tail es) :
    D.Emits tail (cs ++ .jumpIfFalse (ts.length + 1) :: ts ++ .jump es.length :: es) := by
  intro a ha h
  rw [append_assoc]
  exact (hc a (by simp) h.left.left).append (segment_test (ht a ha h.left.right.rest) (he a ha h.right.rest))

lemma Emits.unless (he : D.Emits tail es) :
    D.Emits tail (cs ++ [.dup, .jumpIfFalse 1, .jump (es.length + 1), .pop] ++ es) := by
  intro a ha h
  rw [append_assoc]
  exact (hc a (by simp) h.left.left).append (segment_unless (he a ha h.right))

lemma Emits.and (he : D.Emits tail es) : D.Emits tail (cs ++ [.dup, .jumpIfFalse (es.length + 1), .pop] ++ es) := by
  intro a ha h
  rw [append_assoc]
  have hpop : D.flow.Segment (D.val a) (.pop :: es) (D.val a) := .cons rfl rfl (he a ha h.right)
  have hover : D.flow.Segment (D.val (D.val a)) (.jumpIfFalse (es.length + 1) :: .pop :: es) (D.val a) :=
    .over rfl (by simp [flow, Op.offset?]) rfl hpop
  have hdup : D.flow.Segment (D.val a) (.dup :: .jumpIfFalse (es.length + 1) :: .pop :: es) (D.val a) :=
    .cons ⟨a, rfl, rfl⟩ rfl hover
  exact (hc a (by simp) h.left.left).append hdup

lemma Emits.seq (he : D.Emits tail es) : D.Emits tail (cs ++ .pop :: es) := by
  intro a ha h
  exact (hc a (by simp) h.left).append (.cons rfl rfl (he a ha h.right.rest))

lemma Emits.store (op : Op) (hop : ∀ a, D.next op (D.val a) a) (ho : op.offset? = none) (v : Value) :
    D.Emits tail (cs ++ [op, .const v]) := by
  intro a _ h
  exact (hc a (by simp) h.left).append (.cons (hop a) ho (segment_single rfl rfl))

lemma Emits.storeLocal (idx : ℕ) : D.Emits tail (cs ++ [.storeLocal idx, .const .void]) :=
  hc.store (.storeLocal idx) (fun _ => rfl) rfl _

lemma Emits.storeUpvalue (idx : ℕ) : D.Emits tail (cs ++ [.storeUpvalue idx, .const .void]) :=
  hc.store (.storeUpvalue idx) (fun _ => rfl) rfl _

lemma Emits.storeGlobal (name : String) : D.Emits tail (cs ++ [.storeGlobal name, .const .void]) :=
  hc.store (.storeGlobal name) (fun _ => rfl) rfl _

lemma Emits.defineGlobal (name : String) : D.Emits tail (cs ++ [.defineGlobal name, .const .void]) :=
  hc.store (.defineGlobal name) (fun _ => rfl) rfl _

lemma Emits.replace (op : Op) (hop : ∀ a, D.next op (D.val a) (D.val a)) (ho : op.offset? = none) :
    D.Emits tail (cs ++ [op]) := by
  intro a _ h
  exact (hc a (by simp) h.left).append (segment_single (hop a) ho)

end

lemma emits_call {n : ℕ} (hc : D.Leaves (n + 1) cs) : D.Emits tail (cs ++ [if tail then .tailCall n else .call n]) := by
  intro a ha h
  refine (hc a h.left).append ?_
  cases tail with
  | false => exact segment_single ⟨a, rfl, rfl⟩ rfl
  | true => exact segment_single ⟨a, rfl, rfl, ha rfl⟩ rfl

lemma segment_wind (a : A) (b t f r x : ℕ) :
    D.flow.Segment a [.loadLocal b, .call 0, .pop, .loadLocal b, .loadLocal f, .pushWinder, .pushHandler 10,
      .loadLocal t, .call 0, .popHandler, .popWinder, .storeLocal r, .loadLocal f, .call 0, .pop, .loadLocal r, .jump 7,
      .popWinder, .storeLocal x, .loadLocal f, .call 0, .pop, .loadLocal x, .raise] (D.val a) := by
  have hcall (c : A) (i : ℕ) {ys : List Op} {e : A} (h : D.flow.Segment c ys e) :
      D.flow.Segment c (.loadLocal i :: .call 0 :: .pop :: ys) e :=
    .cons rfl rfl (.cons ⟨c, rfl, rfl⟩ rfl (.cons rfl rfl h))
  have hexn : D.flow.Segment (D.val a)
      [.popWinder, .storeLocal x, .loadLocal f, .call 0, .pop, .loadLocal x, .raise] (D.val a) :=
    .cons rfl rfl (.cons rfl rfl (hcall a f (.cons rfl rfl (segment_single ⟨a, rfl, rfl⟩ rfl))))
  have hbody : D.flow.Segment (D.opened a) [.loadLocal t, .call 0, .popHandler, .popWinder, .storeLocal r,
      .loadLocal f, .call 0, .pop, .loadLocal r] (D.val a) :=
    .cons rfl rfl (.cons ⟨D.opened a, rfl, rfl⟩ rfl (.cons ⟨a, rfl, rfl⟩ rfl (.cons rfl rfl (.cons rfl rfl
      (hcall a f (segment_single rfl rfl))))))
  have hguard : D.flow.Segment a (.pushHandler 10 :: [.loadLocal t, .call 0, .popHandler, .popWinder, .storeLocal r,
      .loadLocal f, .call 0, .pop, .loadLocal r] ++ .jump 7 ::
      [.popWinder, .storeLocal x, .loadLocal f, .call 0, .pop, .loadLocal x, .raise]) (D.val a) :=
    .branch rfl rfl rfl hbody trivial rfl rfl hexn
  exact hcall a b (.cons rfl rfl (.cons rfl rfl (.cons rfl rfl hguard)))

lemma emits_wind (hb : D.Emits false cs) (ht : D.Emits false ts) (hf : D.Emits false es) (b t f r x : ℕ) :
    D.Emits tail (cs ++ .storeLocal b :: ts ++ .storeLocal t :: es ++ .storeLocal f ::
      [.loadLocal b, .call 0, .pop, .loadLocal b, .loadLocal f, .pushWinder, .pushHandler 10,
      .loadLocal t, .call 0, .popHandler, .popWinder, .storeLocal r, .loadLocal f, .call 0, .pop, .loadLocal r, .jump 7,
      .popWinder, .storeLocal x, .loadLocal f, .call 0, .pop, .loadLocal x, .raise]) := by
  intro a _ h
  simp only [append_assoc, cons_append]
  exact (hb a (by simp) h.left.left.left).append (.cons rfl rfl ((ht a (by simp) h.left.left.right.rest).append
    (.cons rfl rfl ((hf a (by simp) h.left.right.rest).append (.cons rfl rfl (segment_wind a b t f r x))))))

lemma Emits.handles (h : D.Emits tail xs) : D.Handles tail xs := fun a ha hx => h a ha hx.rest

lemma Emits.guard (hb : D.Emits false cs)
    (hx : D.Allows (xs ++ [.pop]) → ∀ a, D.flow.Segment (D.val a) (xs ++ [.pop]) a) (he : D.Handles tail es) :
    D.Emits tail (.pushHandler (cs.length + 2) :: cs ++ .popHandler ::
      .jump ((xs ++ [Op.pop]).length + es.length) :: (xs ++ [.pop]) ++ es) := by
  intro a ha h
  have hbind : D.Allows (xs ++ [.pop]) := h.left.right.rest.rest
  have hhandle : D.Allows (.pop :: es) := by
    refine D.allows_mono ⟨.pushHandler (cs.length + 2) :: cs ++ .popHandler ::
      .jump ((xs ++ [Op.pop]).length + es.length) :: xs, [], ?_⟩ h
    simp
  have hbody : D.flow.Segment (D.opened a) (cs ++ [.popHandler]) (D.val a) :=
    (hb (D.opened a) (by simp) h.left.left.rest).append (segment_single ⟨a, rfl, rfl⟩ rfl)
  have hhandler : D.flow.Segment (D.val a) ((xs ++ [.pop]) ++ es) (D.val a) :=
    (hx hbind a).append (he a ha hhandle)
  have hguard : D.flow.Segment a (.pushHandler (cs.length + 2) :: (cs ++ [.popHandler]) ++
      .jump ((xs ++ [Op.pop]).length + es.length) :: ((xs ++ [.pop]) ++ es)) (D.val a) :=
    .branch rfl (by simp [flow, Op.offset?]; omega) rfl hbody trivial (by simp [flow, Op.offset?]; omega) rfl hhandler
  simpa using hguard

variable (hc : D.Emits false cs)
include hc

lemma Emits.closureHandler (ht : D.Emits false ts) : D.Emits tail
      (cs ++ .pushClosureHandler :: ts ++ [.call 0, .popClosureHandler] ++ (if tail then [.ret] else [])) := by
  intro a ha h
  have hend : D.flow.Segment (D.val a) (if tail then [.ret] else []) (D.val a) := by
    cases tail with
    | false => exact .nil _
    | true => exact segment_single ⟨a, rfl, rfl, ha rfl⟩ rfl
  have hcall : D.flow.Segment (D.val (D.opened a)) ([.call 0, .popClosureHandler] ++ if tail then [.ret] else [])
      (D.val a) :=
    .cons ⟨D.opened a, rfl, rfl⟩ rfl (.cons ⟨a, rfl, rfl⟩ rfl hend)
  have hthunk := (ht (D.opened a) (by simp) h.left.left.right.rest).append hcall
  have hall : D.flow.Segment (D.val a) (.pushClosureHandler :: _) (D.val a) := .cons ⟨a, rfl, rfl⟩ rfl hthunk
  simpa using (hc a (by simp) h.left.left.left).append hall

lemma Emits.apply (ht : D.Emits false ts) : D.Emits tail (cs ++ ts ++ [.apply]) := by
  intro a _ h
  rw [append_assoc]
  exact (hc a (by simp) h.left.left).append ((ht _ (by simp) h.left.right).append (segment_single ⟨a, rfl, rfl⟩ rfl))

lemma Emits.callCc : D.Emits tail (cs ++ [.captureCc, if tail then .tailCall 1 else .call 1]) := by
  have htwo : D.Leaves 2 (cs ++ [.captureCc]) := by
    intro a h
    exact (hc a (by simp) h.left).append (segment_single ⟨a, rfl, rfl⟩ rfl)
  simpa using emits_call htwo

lemma Emits.arrow (hp : D.Emits false ps) (he : D.Emits tail rest) (idx : ℕ) : D.Emits tail
      (cs ++ [.dup, .jumpIfFalse (ps.length + 4), .storeLocal idx] ++ ps ++ [.loadLocal idx, if tail then .tailCall 1
        else .call 1, .jump (rest.length + 1), .pop] ++ rest) := by
  intro a ha h
  have hps : D.flow.Segment a (ps ++ [.loadLocal idx, if tail then .tailCall 1 else .call 1]) (D.val a) := by
    refine (hp a (by simp) h.left.left.right).append (.cons rfl rfl ?_)
    cases tail with
    | false => exact segment_single ⟨a, rfl, rfl⟩ rfl
    | true => exact segment_single ⟨a, rfl, rfl, ha rfl⟩ rfl
  have hstore : D.flow.Segment (D.val a)
      (.storeLocal idx :: (ps ++ [.loadLocal idx, if tail then .tailCall 1 else .call 1])) (D.val a) :=
    .cons rfl rfl hps
  have hpop : D.flow.Segment (D.val a) (.pop :: rest) (D.val a) := .cons rfl rfl (he a ha h.right)
  have hbranch : D.flow.Segment (D.val (D.val a)) (.jumpIfFalse (ps.length + 4) ::
      (.storeLocal idx :: (ps ++ [.loadLocal idx, if tail then .tailCall 1 else .call 1])) ++
      .jump (rest.length + 1) :: .pop :: rest) (D.val a) :=
    .branch rfl (by simp [flow, Op.offset?]; omega) rfl hstore trivial (by simp [flow, Op.offset?]) rfl hpop
  have hdup : D.flow.Segment (D.val a) (.dup :: _) (D.val a) := .cons ⟨a, rfl, rfl⟩ rfl hbranch
  simpa using (hc a (by simp) h.left.left.left.left).append hdup

end Discipline

def CodeObject.Shaped (code : CodeObject) : Prop := ∀ (A : Type) (D : Discipline A), D.CodeOk code

def Discipline.Labelled {A : Type} (D : Discipline A) (pool : List CodeObject) (L : ℕ → List A) : Prop :=
  ∀ id, (L id)[0]? = some D.entry ∧ ∀ code, pool[id]? = some code →
    ∃ ls, L id = ls ++ [D.val D.entry] ∧ D.flow.Labels code.ops ls [D.val D.entry]

section Labelled

variable {A : Type} {D : Discipline A} {pool : List CodeObject} {L : ℕ → List A} {code : CodeObject} {id i : ℕ}

lemma Discipline.exists_labelled (hshaped : ∀ code ∈ pool, code.Shaped) (hallows : ∀ code ∈ pool, D.Allows code.ops) :
    ∃ L, D.Labelled pool L := by
  have hlabels (id : ℕ) : ∃ l : List A, l[0]? = some D.entry ∧ ∀ code, pool[id]? = some code →
      ∃ ls, l = ls ++ [D.val D.entry] ∧ D.flow.Labels code.ops ls [D.val D.entry] := by
    cases hcode : pool[id]? with
    | none => exact ⟨[D.entry], rfl, by simp⟩
    | some code =>
      have hmem := mem_of_getElem? hcode
      obtain ⟨ls, hhead, hls⟩ := hshaped code hmem A D (hallows code hmem)
      refine ⟨ls ++ [D.val D.entry], by rw [← head?_eq_getElem?, hhead], ?_⟩
      rintro _ ⟨⟩
      exact ⟨ls, rfl, hls⟩
  exact ⟨fun id => (hlabels id).choose, fun id => (hlabels id).choose_spec⟩

variable (h : D.Labelled pool L) (hcode : pool[id]? = some code)
include h hcode

lemma Discipline.Labelled.next {op : Op} (hop : code.ops[i]? = some op) :
    ∃ a b, (L id)[i]? = some a ∧ (L id)[i + 1]? = some b ∧ D.next op a b ∧ ∀ off, op.offset? = some off → ∃ n : ℕ, off =
      n ∧ ∃ c, (L id)[i + 1 + n]? = some c ∧ D.jump op a c := by
  obtain ⟨ls, hl, hls⟩ := (h id).2 code hcode
  rw [hl]
  exact hls.at_index hop

lemma Discipline.Labelled.last (hop : code.ops[i]? = none) {a : A} (ha : (L id)[i]? = some a) : a = D.val D.entry := by
  obtain ⟨ls, hl, hls⟩ := (h id).2 code hcode
  have hlen := hls.length_eq
  rw [List.getElem?_eq_none_iff] at hop
  rw [hl, getElem?_append_right (by omega), getElem?_singleton] at ha
  split at ha
  · exact (Option.some.inj ha).symm
  · simp at ha

end Labelled

structure CompilerInvariant {W A : Type} (S : Services W) (D : Discipline A) (I : Compiler W → Prop)
    (E : LispError → Compiler W → Prop) : Prop where
  scopes : ∀ {c} s, I c → I { c with scopes := s }
  macros : ∀ {c} t, I c → I { c with macros := t }
  gensym : ∀ {c} n, I c → I { c with gensymCounter := n }
  code : ∀ {c} code, I c → D.CodeOk code → I { c with codePool := c.codePool ++ [code] }
  named : ∀ {c} name, I c →
    I { c with codePool := c.codePool.modifyLast fun code => { code with name := some name } }
  included : ∀ {c} w, I c → I { c with store := { c.store with world := w } }
  expanded : ∀ {c} form v s, I c → S.evalTemplate c.ambientTier form c.store = some (.ok v, s) →
    I { c with store := s }
  failed : ∀ {c} form e s, I c → S.evalTemplate c.ambientTier form c.store = some (.error e, s) →
    E e { c with store := s }
  error : ∀ {c} e, I c → E e c

variable {W A : Type} {S : Services W} {D : Discipline A} {I : Compiler W → Prop} {E : LispError → Compiler W → Prop}

abbrev Discipline.Codes (D : Discipline A) (I : Compiler W → Prop) (E : LispError → Compiler W → Prop) (tail : Bool)
    (x : CompileM W (List Op)) : Prop :=
  Yields I E (D.Emits tail) x

lemma currentScope_yields : Preserves I E currentScope :=
  Yields.get.bind fun _ _ => .pure trivial

lemma nested_yields : Preserves I E nested :=
  Yields.get.bind fun _ _ => .pure trivial

lemma resolveLocal_yields (name : String) : Preserves I E (resolveLocal name) :=
  currentScope_yields.bind fun _ _ => .pure trivial

lemma reraise_yields (exnVar : String) (tail : Bool) : D.Codes I E tail (reraise exnVar) := by
  have hraise {op : Op} (h : ∀ a, D.next op a (D.val a)) (ho : op.offset? = none) : D.Emits tail [op, .raise] :=
    (D.emits_push h ho).replace .raise (fun a => ⟨a, rfl, rfl⟩) rfl
  refine (resolveLocal_yields exnVar).bind fun r _ => ?_
  cases r with
  | some idx => exact .pure (hraise (fun _ => rfl) rfl)
  | none => exact .pure (hraise (fun _ => rfl) rfl)

lemma hasCatchAll_cons {clause test : Value} {clauses body : List Value} (hc : clause.toList? = some (test :: body))
    (ht : isCatchAll test = false) : hasCatchAll (clause :: clauses) = hasCatchAll clauses := by
  simp [hasCatchAll, hc, ht]

namespace CompilerInvariant

variable (hI : CompilerInvariant S D I E) {items : List Value} {tail : Bool}
include hI

variable (name : String)

lemma addLocal : Preserves I E (addLocal name) :=
  currentScope_yields.bind fun _ _ =>
    Yields.bind (.modify fun _ hc => hI.scopes _ hc) fun _ _ => .pure trivial

lemma resolveOrAddLocal : Preserves I E (resolveOrAddLocal name) := by
  refine (resolveLocal_yields name).bind fun r _ => ?_
  cases r with
  | some idx => exact .pure trivial
  | none => exact hI.addLocal name

lemma captureUpvalue : Preserves I E (captureUpvalue name) := by
  refine Yields.get.bind fun c _ => ?_
  split
  · exact Yields.bind (.modify fun _ hc => hI.scopes _ hc) fun _ _ => .pure trivial
  · exact .pure trivial

lemma pushScope (params : List String) : Preserves I E (pushScope params) :=
  .modify fun _ hc => hI.scopes _ hc

lemma popScope {code : CodeObject} (h : D.CodeOk code) : Preserves I E (popScope code) :=
  currentScope_yields.bind fun _ _ => Yields.get.bind fun _ _ =>
    Yields.bind (.modify fun c hc => hI.code code (hI.scopes c.scopes.tail hc) h) fun _ _ => .pure trivial

lemma nameLastCode : Preserves I E (nameLastCode name) :=
  .modify fun _ hc => hI.named name hc

lemma fresh (stem : String) : Preserves I E (Scheme.gensym stem) :=
  Yields.get.bind fun _ _ => Yields.bind (.modify fun _ hc => hI.gensym _ hc) fun _ _ => .pure trivial

lemma addMacro (mac : MacroDef) : Preserves I E (defineMacro name mac) :=
  .modify fun _ hc => hI.macros _ hc

lemma fails {α : Type} {P : α → Prop} (e : LispError) : Yields I E P (throw e) :=
  .throw fun _ hc => hI.error e hc

lemma lifts {α : Type} (r : Except LispError α) : Preserves I E (lift r) :=
  .lift (fun _ _ => trivial) fun e _ hc => hI.error e hc

lemma asList (message : String) (v : Value) : Yields I E (fun items => v.toList? = some items) (asList message v) := by
  unfold Scheme.asList
  split
  · exact .pure ‹_›
  · exact hI.fails _

lemma asSymbol (message : String) (v : Value) : Preserves I E (asSymbol message v) := by
  unfold Scheme.asSymbol
  split
  · exact .pure trivial
  · exact hI.fails _

lemma variableRef (tail : Bool) : D.Codes I E tail (compileVariableRef name) := by
  refine (resolveLocal_yields name).bind fun r _ => ?_
  cases r with
  | some idx => exact .pure (D.emits_push (fun _ => rfl) rfl)
  | none =>
    refine (hI.captureUpvalue name).bind fun r _ => ?_
    cases r <;> exact .pure (D.emits_push (fun _ => rfl) rfl)

lemma quote : D.Codes I E tail (compileQuote items) := by
  unfold compileQuote
  split
  · exact .pure (D.emits_const _)
  · exact hI.fails _

lemma predeclare (names : List String) : Yields I E (D.Leaves 0) (predeclare names) := by
  induction names with
  | nil => exact .pure D.leaves_nil
  | cons name names ih =>
    refine (resolveLocal_yields name).bind fun r _ => ?_
    cases r with
    | some idx => exact ih
    | none =>
      refine (hI.addLocal name).bind fun idx _ => ih.bind fun ops hops => .pure fun a h => ?_
      exact .cons rfl rfl (.cons rfl rfl (hops a h.rest.rest))

lemma declareDefines (exprs : List Value) : Yields I E (D.Leaves 0) (declareDefines exprs) := by
  refine nested_yields.bind fun b _ => ?_
  cases b with
  | true => exact hI.predeclare _
  | false => exact .pure D.leaves_nil

lemma bindDefined {cs : List Op} (hcs : D.Emits false cs) (tail : Bool) :
    Yields I E (fun ops => D.Emits tail (cs ++ ops)) (bindDefined name) := by
  refine nested_yields.bind fun b _ => ?_
  cases b with
  | true => exact (hI.resolveOrAddLocal name).bind fun idx _ => .pure (hcs.storeLocal idx)
  | false => exact .pure (hcs.defineGlobal name)

lemma parseBindings (form : String) (bindings : List Value) : Preserves I E (parseBindings form bindings) := by
  refine (Yields.mapM (P := fun _ => True) fun binding => ?_).mono fun _ _ => trivial
  refine (hI.asList _ _).bind fun items _ => ?_
  split
  · exact (hI.asSymbol _ _).bind fun name _ => .pure trivial
  · exact hI.fails _

lemma nestLetValues (body : Value) (bindings : List Value) : Preserves I E (nestLetValues body bindings) := by
  induction bindings with
  | nil => exact .pure trivial
  | cons binding bindings ih =>
    refine ih.bind fun inner _ => (hI.asList _ _).bind fun items _ => ?_
    split
    · exact (hI.asList _ _).bind fun formals _ => .pure trivial
    · exact hI.fails _

lemma parseTransformer (form : String) (e e' : LispError) (transformer : Value) :
    Preserves I E (parseTransformer form e e' transformer) := by
  unfold Scheme.parseTransformer
  split
  · exact hI.fails _
  · exact hI.fails _
  · exact hI.lifts _
  · exact hI.fails _

lemma bindLocalMacro (binding : Value) : Preserves I E (bindLocalMacro binding) := by
  refine (hI.asList _ _).bind fun items _ => ?_
  split
  · refine (hI.asSymbol _ _).bind fun name _ => ?_
    exact (hI.parseTransformer _ _ _ _).bind fun rules _ => hI.addMacro name _
  · exact hI.fails _

lemma includeFiles (foldCase : Bool) (items : List Value) : Preserves I E (includeFiles S foldCase items) := by
  induction items with
  | nil => exact .pure trivial
  | cons item items ih =>
    unfold Scheme.includeFiles
    split
    · refine Yields.bind (P := fun _ => True) ?_ fun datums _ => ih.bind fun more _ => .pure trivial
      intro c hc
      unfold wp
      rw [ofState_apply]
      rcases S.includeFile foldCase _ c.store.world with ⟨_ | _, w⟩
      · exact hI.error _ (hI.included w hc)
      · exact ⟨hI.included w hc, trivial⟩
    · exact hI.fails _

lemma syntaxError : D.Codes I E tail (compileSyntaxError S items) := by
  unfold compileSyntaxError
  split
  · exact hI.fails _
  · exact Yields.get.bind fun c _ => hI.fails _
  · exact hI.fails _

lemma recordField (ctorFields : List String) (i : ℕ) (spec : Value) :
    Preserves I E (recordField ctorFields i spec) := by
  refine (hI.asList _ _).bind fun items _ => ?_
  split
  · rename_i more _
    refine (hI.asSymbol _ _).bind fun field _ => ?_
    refine (hI.asSymbol _ _).bind fun accessor _ => ?_
    cases more with
    | nil => exact .pure trivial
    | cons mutator _ => exact (hI.asSymbol _ _).bind fun mutator _ => .pure trivial
  · exact hI.fails _

lemma recordFields (ctorFields : List String) (i : ℕ) (specs : List Value) :
    Preserves I E (recordFields ctorFields i specs) := by
  induction specs generalizing i with
  | nil => exact .pure trivial
  | cons spec specs ih =>
    exact (hI.recordField ctorFields i spec).bind fun defs _ => (ih (i + 1)).bind fun more _ => .pure trivial

lemma defineMacro : D.Codes I E tail (compileDefineMacro items) := by
  unfold compileDefineMacro
  split
  · split
    · exact hI.fails _
    · exact hI.fails _
    · refine Yields.bind (Yields.mapM (P := fun _ => True) fun v => ?_) fun params _ => ?_
      · split
        · exact .pure trivial
        · exact hI.fails _
      · exact (hI.addMacro _ _).bind fun _ _ => .pure (D.emits_const _)
    · exact hI.fails _
  · exact hI.fails _

lemma defineSyntax : D.Codes I E tail (compileDefineSyntax items) := by
  unfold compileDefineSyntax
  split
  · refine (hI.parseTransformer _ _ _ _).bind fun rules _ => ?_
    exact (hI.addMacro _ _).bind fun _ _ => .pure (D.emits_const _)
  · exact hI.fails _
  · exact hI.fails _

lemma expandMacro (mac : MacroDef) (items : List Value) : Preserves I E (expandMacro S mac items) := by
  cases mac with
  | template params body =>
    refine Yields.bind (.require fun _ hc => hI.error _ hc) fun _ _ c hc => ?_
    simp only [wp_bind, wp_get]
    split
    · trivial
    · rename_i r s hr
      cases r with
      | ok v => exact ⟨hI.expanded _ v s hc hr, trivial⟩
      | error e => exact hI.failed _ e s hc hr
  | syntaxRules rules =>
    unfold Scheme.expandMacro
    simp only
    split
    · exact .stuck
    · exact hI.lifts _

lemma caseClauses (clauses : List Value) : Preserves I E (caseClauses clauses) := by
  induction clauses with
  | nil => exact .pure trivial
  | cons clause clauses ih =>
    refine (hI.asList _ _).bind fun items _ => ?_
    split
    · exact hI.fails _
    · exact .pure trivial
    · exact .pure trivial
    · exact (hI.asList _ _).bind fun datums _ => ih.bind fun rest _ => .pure trivial

lemma caseLambdaClause (clause : Value) : Preserves I E (caseLambdaClause clause) := by
  refine (hI.asList _ _).bind fun items _ => ?_
  split
  · exact hI.fails _
  · exact (hI.lifts _).bind fun p _ => .pure trivial

lemma doSpec (spec : Value) : Preserves I E (doSpec spec) := by
  refine (hI.asList _ _).bind fun items _ => ?_
  split
  · exact (hI.asSymbol _ _).bind fun name _ => .pure trivial
  · exact (hI.asSymbol _ _).bind fun name _ => .pure trivial
  · exact hI.fails _

lemma parameterBinding (binding : Value) : Preserves I E (parameterBinding binding) := by
  refine (hI.asList _ _).bind fun items _ => ?_
  split
  · exact .pure trivial
  · exact hI.fails _

lemma bindException (var : String) : Yields I E (fun ops => ∃ xs, ops = xs ++ [.pop] ∧
      (D.Allows (xs ++ [.pop]) → ∀ a, D.flow.Segment (D.val a) (xs ++ [.pop]) a))
      (bindException var) := by
  refine nested_yields.bind fun b _ => ?_
  cases b with
  | true =>
    refine (hI.addLocal var).bind fun idx _ => .pure ⟨[.storeLocal idx, .const .void], rfl, fun _ a => ?_⟩
    exact .cons rfl rfl (.cons rfl rfl (D.segment_single rfl rfl))
  | false =>
    refine .pure ⟨[.defineGlobal var], rfl, fun h a => .cons rfl rfl (D.segment_single ?_ rfl)⟩
    exact (D.topLevelGuard var h a).symm

end CompilerInvariant

structure Compiling {W A : Type} (S : Services W) (D : Discipline A) (I : Compiler W → Prop)
    (E : LispError → Compiler W → Prop) (expr : Value → Bool → CompileM W (List Op)) : Prop
    extends CompilerInvariant S D I E where
  expr : ∀ e tail, D.Codes I E tail (expr e tail)

namespace Compiling

variable {expr : Value → Bool → CompileM W (List Op)} (hC : Compiling S D I E expr) {items : List Value} {tail : Bool}
include hC

lemma ifForm : D.Codes I E tail (compileIf expr items tail) := by
  unfold compileIf
  split
  · refine (hC.expr _ _).bind fun cs hcs => (hC.expr _ _).bind fun ts hts => .pure ?_
    exact hcs.test hts (D.emits_const .void)
  · refine (hC.expr _ _).bind fun cs hcs => (hC.expr _ _).bind fun ts hts => (hC.expr _ _).bind fun es hes => .pure ?_
    exact hcs.test hts hes
  · exact hC.fails _

lemma sequence (h : items ≠ []) : D.Codes I E tail (compileSequence expr tail items) := by
  induction items with
  | nil => exact absurd rfl h
  | cons e es ih =>
    cases es with
    | nil => exact hC.expr e tail
    | cons e' es =>
      exact (hC.expr e false).bind fun c hc => (ih (by simp)).bind fun cs hcs => .pure (hc.seq hcs)

lemma begin : D.Codes I E tail (compileBegin expr items tail) := by
  unfold compileBegin
  split
  · exact .pure (D.emits_const _)
  · rename_i hne
    refine (hC.declareDefines items).bind fun ds hds => ?_
    refine (hC.sequence (by simpa using hne)).bind fun cs hcs => .pure ?_
    intro a ha h
    exact (hds a h.left).append (hcs a ha h.right)

lemma lambda : D.Codes I E tail (compileLambda expr items) := by
  unfold compileLambda
  split
  · refine (hC.lifts _).bind fun p _ => (hC.pushScope _).bind fun _ _ => ?_
    refine hC.begin.bind fun ops hops => ?_
    refine (hC.popScope fun h => ?_).bind fun q _ => .pure (D.emits_push (fun _ => rfl) rfl)
    have hbody := hops D.entry (fun _ => D.exit_entry) h.left
    exact hbody.append (D.segment_single ⟨D.entry, rfl, rfl, D.exit_entry⟩ rfl)
  · exact hC.fails _

lemma define : D.Codes I E tail (compileDefine expr items) := by
  unfold compileDefine
  split
  · split
    · refine Yields.bind (.require fun _ hc => hC.error _ hc) fun _ _ => ?_
      refine (hC.expr _ _).bind fun c hc => ?_
      exact (hC.bindDefined _ hc tail).bind fun b hb => .pure hb
    · refine (hC.asSymbol _ _).bind fun name _ => ?_
      refine (hC.lambda : D.Codes I E false _).bind fun c hc => ?_
      refine (hC.nameLastCode name).bind fun _ _ => ?_
      exact (hC.bindDefined name hc tail).bind fun b hb => .pure hb
    · exact hC.fails _
  · exact hC.fails _

lemma setForm : D.Codes I E tail (compileSet expr items) := by
  unfold compileSet
  split
  · refine (hC.asSymbol _ _).bind fun name _ => (hC.expr _ _).bind fun c hc => ?_
    refine (resolveLocal_yields name).bind fun r _ => ?_
    cases r with
    | some idx => exact .pure (hc.storeLocal idx)
    | none =>
      refine (hC.captureUpvalue name).bind fun r _ => ?_
      cases r with
      | some idx => exact .pure (hc.storeUpvalue idx)
      | none => exact .pure (hc.storeGlobal name)
  · exact hC.fails _

lemma args : Yields I E (D.Leaves items.length) (compileArgs expr items) := by
  induction items with
  | nil => exact .pure D.leaves_nil
  | cons e es ih =>
    refine (hC.expr e false).bind fun c hc => ih.bind fun cs hcs => .pure ?_
    rw [length_cons, Nat.add_comm]
    exact hc.leaves.append hcs

lemma binder (f : Value) : D.Codes I E tail (compileBinder expr f items tail) := by
  refine (hC.expr _ _).bind fun f hf => hC.args.bind fun cs hcs => .pure (D.emits_call ?_)
  rw [Nat.add_comm]
  exact hf.leaves.append hcs

lemma letrec : D.Codes I E tail (compileLetrec expr items tail) := by
  unfold compileLetrec
  split
  · refine (hC.asList _ _).bind fun bindings _ => ?_
    exact (hC.parseBindings _ _).bind fun bindings _ => hC.binder _
  · exact hC.fails _

lemma namedLet (name : String) : D.Codes I E tail (compileNamedLet expr name items tail) := by
  unfold compileNamedLet
  split
  · refine (hC.asList _ _).bind fun bindings _ => ?_
    exact (hC.parseBindings _ _).bind fun bindings _ => hC.letrec
  · exact hC.fails _

lemma letForm : D.Codes I E tail (compileLet expr items tail) := by
  unfold compileLet
  split
  · exact hC.namedLet _
  · refine (hC.asList _ _).bind fun bindings _ => ?_
    exact (hC.parseBindings _ _).bind fun bindings _ => hC.binder _
  · exact hC.fails _

lemma letStar : D.Codes I E tail (compileLetStar expr items tail) := by
  unfold compileLetStar
  split
  · refine (hC.asList _ _).bind fun bindings _ => ?_
    split
    · exact hC.begin
    · exact hC.letForm
  · exact hC.fails _

lemma andForm : D.Codes I E tail (compileAnd expr tail items) := by
  induction items with
  | nil => exact .pure (D.emits_const _)
  | cons e es ih =>
    cases es with
    | nil => exact hC.expr e tail
    | cons e' es => exact (hC.expr e false).bind fun c hc => ih.bind fun cs hcs => .pure (hc.and hcs)

lemma orForm : D.Codes I E tail (compileOr expr tail items) := by
  induction items with
  | nil => exact .pure (D.emits_const _)
  | cons e es ih =>
    cases es with
    | nil => exact hC.expr e tail
    | cons e' es => exact (hC.expr e false).bind fun c hc => ih.bind fun cs hcs => .pure (hc.unless hcs)

lemma cond : D.Codes I E tail (compileCond expr tail items) := by
  induction items with
  | nil => exact .pure (D.emits_const _)
  | cons clause clauses ih =>
    refine (hC.asList _ _).bind fun items _ => ?_
    split
    · exact hC.fails _
    · exact hC.begin
    · refine (hC.expr _ _).bind fun t ht => (hC.fresh _).bind fun tmp _ => ?_
      refine (hC.addLocal tmp).bind fun idx _ => (hC.expr _ _).bind fun p hp => ?_
      exact ih.bind fun rest hrest => .pure (ht.arrow hp hrest idx)
    · exact (hC.expr _ _).bind fun t ht => ih.bind fun rest hrest => .pure (ht.unless hrest)
    · refine (hC.expr _ _).bind fun t ht => hC.begin.bind fun b hb => ?_
      exact ih.bind fun rest hrest => .pure (ht.test hb hrest)

lemma whenForm : D.Codes I E tail (compileWhen expr items tail) := by
  unfold compileWhen
  split
  · refine (hC.expr _ _).bind fun t ht => hC.begin.bind fun b hb => .pure ?_
    exact ht.test hb (D.emits_const .void)
  · exact hC.fails _

lemma unlessForm : D.Codes I E tail (compileUnless expr items tail) := by
  unfold compileUnless
  split
  · refine (hC.expr _ _).bind fun t ht => hC.begin.bind fun b hb => .pure ?_
    simpa using ht.test (D.emits_const .void) hb
  · exact hC.fails _

lemma defineElements (i : ℕ) : Yields I E (D.Leaves 0) (compileDefineElements expr i items) := by
  induction items generalizing i with
  | nil => exact .pure D.leaves_nil
  | cons formal formals ih =>
    refine (hC.asSymbol _ _).bind fun name _ => (hC.expr _ _).bind fun c hc => ?_
    refine (ih (i + 1)).bind fun cs hcs => .pure fun a h => ?_
    exact (hc a (by simp) h.left).append (.cons rfl rfl (hcs a h.right.rest))

lemma defineValues : D.Codes I E tail (compileDefineValues expr items) := by
  unfold compileDefineValues
  split
  · refine (hC.asList _ _).bind fun formals _ => ?_
    split
    · refine (hC.asSymbol _ _).bind fun name _ => ?_
      exact (hC.expr _ _).bind fun c hc => .pure (hc.defineGlobal name)
    · refine (hC.expr _ _).bind fun c hc => ?_
      refine (hC.defineElements 0).bind fun cs hcs => .pure ?_
      intro a _ h
      rw [append_assoc]
      have hend := (hcs a h.left.right.rest).append (D.segment_single rfl rfl : D.flow.Segment a [.const .void] _)
      exact (hc a (by simp) h.left.left).append (.cons rfl rfl hend)
  · exact hC.fails _

lemma letValues : D.Codes I E tail (compileLetValues expr items tail) := by
  unfold compileLetValues
  split
  · refine (hC.asList _ _).bind fun bindings _ => ?_
    exact (hC.nestLetValues _ _).bind fun e _ => hC.expr e tail
  · exact hC.fails _

lemma letStarValues : D.Codes I E tail (compileLetStarValues expr items tail) := by
  unfold compileLetStarValues
  split
  · refine (hC.asList _ _).bind fun bindings _ => ?_
    split
    · exact hC.begin
    · exact hC.letValues
    · exact hC.letValues
  · exact hC.fails _

lemma letSyntax : D.Codes I E tail (compileLetSyntax expr items tail) := by
  unfold compileLetSyntax
  split
  · refine (hC.asList _ _).bind fun bindings _ => Yields.get.bind fun c _ => ?_
    refine (Yields.forM fun b => hC.bindLocalMacro b).bind fun _ _ => ?_
    refine hC.begin.bind fun ops hops => ?_
    exact Yields.bind (.modify fun _ hc => hC.macros _ hc) fun _ _ => .pure hops
  · exact hC.fails _

lemma eval : D.Codes I E tail (compileEval expr items) := by
  unfold compileEval
  split
  · exact (hC.expr _ _).bind fun c hc => .pure (hc.replace .eval (fun a => ⟨a, rfl, rfl⟩) rfl)
  · refine (hC.expr _ _).bind fun c hc => (hC.expr _ _).bind fun d hd => .pure ?_
    intro a _ h
    rw [append_assoc]
    have hpop : D.flow.Segment (D.val (D.val a)) [.pop, .eval] (D.val a) :=
      .cons rfl rfl (D.segment_single ⟨a, rfl, rfl⟩ rfl)
    exact (hc a (by simp) h.left.left).append ((hd _ (by simp) h.left.right).append hpop)
  · exact hC.fails _

lemma load : D.Codes I E tail (compileLoad expr items) := by
  unfold compileLoad
  split
  · exact (hC.expr _ _).bind fun c hc => .pure (hc.replace .load (fun a => ⟨a, rfl, rfl⟩) rfl)
  · exact hC.fails _

lemma dynamicWind : D.Codes I E tail (compileDynamicWind expr items) := by
  unfold compileDynamicWind
  split
  · refine (hC.addLocal _).bind fun bl _ => (hC.expr _ _).bind fun b hb => ?_
    refine (hC.addLocal _).bind fun tl _ => (hC.expr _ _).bind fun t ht => ?_
    refine (hC.addLocal _).bind fun al _ => (hC.expr _ _).bind fun a ha => ?_
    refine (hC.addLocal _).bind fun rl _ => (hC.addLocal _).bind fun xl _ => .pure ?_
    exact D.emits_wind hb ht ha bl tl al rl xl
  · exact hC.fails _

lemma callWithValues : D.Codes I E tail (compileCallWithValues expr items tail) := by
  unfold compileCallWithValues
  split
  · exact hC.expr _ tail
  · exact hC.fails _

lemma receive : D.Codes I E tail (compileReceive expr items tail) := by
  unfold compileReceive
  split
  · exact hC.expr _ tail
  · exact hC.fails _

lemma condExpand : D.Codes I E tail (compileCondExpandClauses S expr tail items) := by
  induction items with
  | nil => exact hC.fails _
  | cons clause clauses ih =>
    refine (hC.asList _ _).bind fun items _ => ?_
    split
    · exact ih
    · refine Yields.get.bind fun c _ => (hC.lifts _).bind fun b _ => ?_
      cases b with
      | true => exact hC.begin
      | false => exact ih

lemma includeForm (foldCase : Bool) : D.Codes I E tail (compileInclude S expr items tail foldCase) := by
  unfold compileInclude
  split
  · exact (hC.includeFiles foldCase _).bind fun exprs _ => hC.begin
  · exact hC.fails _

lemma defineRecordType : D.Codes I E tail (compileDefineRecordType expr items) := by
  unfold compileDefineRecordType
  split
  · refine (hC.asSymbol _ _).bind fun typeName _ => (hC.asList _ _).bind fun ctor _ => ?_
    split
    · exact hC.fails _
    · refine (hC.asSymbol _ _).bind fun ctorName _ => ?_
      refine Yields.bind (Yields.mapM fun v => hC.asSymbol _ v) fun ctorFields _ => ?_
      refine (hC.asSymbol _ _).bind fun predicate _ => ?_
      refine (hC.recordFields _ _ _).bind fun fields _ => ?_
      exact hC.begin.mono fun ops h => h.of_false
  · exact hC.fails _

lemma procCall (hne : items ≠ []) : D.Codes I E tail (compileCall expr items tail) := by
  refine hC.args.bind fun cs hcs => nested_yields.bind fun b _ => ?_
  rw [← Nat.sub_add_cancel (length_pos_iff.2 hne)] at hcs
  cases tail with
  | false => exact .pure (D.emits_call hcs)
  | true =>
    cases b with
    | true => exact .pure (D.emits_call hcs)
    | false => exact .pure (D.emits_call hcs).of_false

lemma quasiquote : D.Codes I E tail (compileQuasiquote expr items) := by
  unfold compileQuasiquote
  split
  · exact (hC.lifts _).bind fun e _ => (hC.expr e false).mono fun ops h => h.of_false
  · exact hC.fails _

lemma case : D.Codes I E tail (compileCase expr items tail) := by
  unfold compileCase
  split
  · exact (hC.caseClauses _).bind fun clauses _ => hC.letForm
  · exact hC.fails _

lemma caseLambda : D.Codes I E tail (compileCaseLambda expr items) := by
  unfold compileCaseLambda
  split
  · refine Yields.bind (Yields.mapM fun clause => hC.caseLambdaClause clause) fun clauses _ => ?_
    exact hC.lambda
  · exact hC.fails _

lemma doForm : D.Codes I E tail (compileDo expr items tail) := by
  unfold compileDo
  split
  · refine (hC.asList _ _).bind fun specs _ => (hC.asList _ _).bind fun test _ => ?_
    split
    · exact hC.fails _
    · refine Yields.bind (Yields.mapM fun spec => hC.doSpec spec) fun specs _ => ?_
      exact (hC.fresh _).bind fun loop _ => hC.letForm
  · exact hC.fails _

lemma parameterize : D.Codes I E tail (compileParameterize expr items tail) := by
  unfold compileParameterize
  split
  · refine (hC.asList _ _).bind fun bindings _ => ?_
    refine Yields.bind (Yields.mapM fun b => hC.parameterBinding b) fun bindings _ => ?_
    exact hC.letForm
  · exact hC.fails _

lemma apply : D.Codes I E tail (compileApply expr items) := by
  unfold compileApply
  split
  · exact (hC.expr _ _).bind fun f hf => (hC.expr _ _).bind fun a ha => .pure (hf.apply ha)
  · exact hC.fails _

lemma callCc : D.Codes I E tail (compileCallCc expr items tail) := by
  unfold compileCallCc
  split
  · exact (hC.expr _ _).bind fun f hf => .pure hf.callCc
  · exact hC.fails _

lemma guardBody : D.Codes I E tail (compileGuardBody expr items tail) := by
  unfold compileGuardBody
  split
  · exact .pure (D.emits_const _)
  · exact hC.begin

lemma guardClauses (exnVar : String) (catchAll : Bool) (hne : items ≠ [])
    (hcatch : catchAll = true → hasCatchAll items = true) :
    D.Codes I E tail (compileGuardClauses expr exnVar tail catchAll items) := by
  induction items with
  | nil => exact absurd rfl hne
  | cons clause clauses ih =>
    refine (hC.asList _ clause).bind fun items hitems => ?_
    cases items with
    | nil => exact hC.fails _
    | cons test body =>
      dsimp only
      split
      · exact hC.begin
      · rename_i htest
        rw [hasCatchAll_cons hitems (by simpa using htest)] at hcatch
        refine (hC.expr _ _).bind fun t ht => hC.guardBody.bind fun b hb => ?_
        refine Yields.bind ?_ fun rest hrest => .pure (ht.test hb hrest)
        split
        · exact reraise_yields exnVar tail
        · rename_i hlast
          refine ih ?_ hcatch
          rintro rfl
          cases catchAll with
          | false => simp at hlast
          | true => simp [hasCatchAll] at hcatch

lemma handler (var : String) : Yields I E (D.Handles tail) (compileHandler expr var tail items) := by
  unfold compileHandler
  split
  · refine .pure fun a _ h => D.segment_single ?_ rfl
    exact ⟨a, (D.bareGuard h a).symm, rfl⟩
  · rename_i hne
    exact (hC.guardClauses var _ (by simpa using hne) id).mono fun ops h => h.handles

lemma guard : D.Codes I E tail (compileGuard expr items tail) := by
  unfold compileGuard
  split
  · refine (hC.asList _ _).bind fun clauses _ => ?_
    split
    · exact hC.fails _
    · refine (hC.asSymbol _ _).bind fun var _ => ?_
      refine hC.begin.bind fun b hb => ?_
      refine (hC.bindException var).bind fun bind hbind => ?_
      obtain ⟨xs, rfl, hxs⟩ := hbind
      exact (hC.handler var).bind fun h hh => .pure (hb.guard hxs hh)
  · exact hC.fails _

lemma raise : D.Codes I E tail (compileRaise expr items) := by
  unfold compileRaise
  split
  · exact (hC.expr _ _).bind fun c hc => .pure (hc.replace .raise (fun a => ⟨a, rfl, rfl⟩) rfl)
  · exact hC.fails _

lemma raiseContinuable : D.Codes I E tail (compileRaiseContinuable expr items) := by
  unfold compileRaiseContinuable
  split
  · exact (hC.expr _ false).mono fun ops h => h.of_false
  · exact hC.fails _

lemma closureHandler : D.Codes I E tail (compileClosureHandler expr items tail) := by
  unfold compileClosureHandler
  split
  · exact (hC.expr _ _).bind fun w hw => (hC.expr _ _).bind fun t ht => .pure (hw.closureHandler ht)
  · exact hC.fails _

lemma withExceptionHandler : D.Codes I E tail (compileWithExceptionHandler expr items tail) := by
  unfold compileWithExceptionHandler
  split
  · exact hC.expr _ tail
  · exact hC.fails _

lemma special (k : Keyword) : D.Codes I E tail (compileSpecial S expr k items tail) := by
  cases k with
  | quote => exact hC.quote
  | ifForm => exact hC.ifForm
  | lambda => exact hC.lambda
  | define => exact hC.define
  | setForm => exact hC.setForm
  | begin => exact hC.begin
  | letForm => exact hC.letForm
  | letStar => exact hC.letStar
  | letrec => exact hC.letrec
  | and => exact hC.andForm
  | or => exact hC.orForm
  | cond => exact hC.cond
  | when => exact hC.whenForm
  | «unless» => exact hC.unlessForm
  | defineValues => exact hC.defineValues
  | defineRecordType => exact hC.defineRecordType
  | defineMacro => exact hC.defineMacro
  | defineSyntax => exact hC.defineSyntax
  | guard => exact hC.guard
  | raise => exact hC.raise
  | raiseContinuable => exact hC.raiseContinuable
  | closureHandler => exact hC.closureHandler
  | withExceptionHandler => exact hC.withExceptionHandler
  | quasiquote => exact hC.quasiquote
  | case => exact hC.case
  | caseLambda => exact hC.caseLambda
  | doForm => exact hC.doForm
  | parameterize => exact hC.parameterize
  | letValues => exact hC.letValues
  | letStarValues => exact hC.letStarValues
  | receive => exact hC.receive
  | apply => exact hC.apply
  | callWithValues => exact hC.callWithValues
  | eval => exact hC.eval
  | load => exact hC.load
  | dynamicWind => exact hC.dynamicWind
  | callCc => exact hC.callCc
  | condExpand => exact hC.condExpand
  | syntaxError => exact hC.syntaxError
  | letSyntax => exact hC.letSyntax
  | includeForm => exact hC.includeForm false
  | includeCi => exact hC.includeForm true

lemma namedForm (name : String) (hne : items ≠ []) : D.Codes I E tail (compileNamed S expr name items tail) := by
  unfold compileNamed
  split
  · exact hC.special _
  · refine Yields.get.bind fun c _ => ?_
    split
    · exact (hC.expandMacro _ items).bind fun e _ => hC.expr e tail
    · exact hC.procCall hne

end Compiling

section Expressions

variable (hI : CompilerInvariant S D I E)
include hI

theorem compileExpr_yields (fuel : ℕ) (e : Value) (tail : Bool) : D.Codes I E tail (compileExpr S fuel e tail) := by
  induction fuel generalizing e tail with
  | zero => exact .stuck
  | succ fuel ih =>
    have hC : Compiling S D I E (compileExpr S fuel) := { hI with expr := ih }
    unfold compileExpr
    split
    · exact hI.variableRef _ tail
    · split
      · exact hI.fails _
      · rename_i hitems
        have hne : ‹List Value› ≠ [] := by
          rintro rfl
          simp [Value.toList?] at hitems
        split
        · exact hC.namedForm _ hne
        · exact hC.procCall hne
    · exact .pure (D.emits_const _)

theorem compileTopLevel_yields (fuel : ℕ) (exprs : List Value) : Preserves I E (compileTopLevel S fuel exprs) := by
  have hprogram : D.Codes I E true (compileProgram S fuel exprs) := by
    unfold compileProgram
    split
    · exact .pure (D.emits_const _)
    · rename_i hne
      exact Compiling.sequence { hI with expr := compileExpr_yields hI fuel } (by simpa using hne)
  refine hprogram.bind fun cs hcs => (hI.popScope fun h => ?_).bind fun p _ => .pure trivial
  have hbody := hcs D.entry (fun _ => D.exit_entry) h.left
  exact hbody.append (D.segment_single ⟨D.entry, rfl, rfl, D.exit_entry⟩ rfl)

end Expressions

lemma forall_mem_modifyLast {α : Type} {P : α → Prop} {f : α → α} (hf : ∀ x, P x → P (f x)) {l : List α}
    (h : ∀ x ∈ l, P x) : ∀ x ∈ l.modifyLast f, P x := by
  rcases eq_nil_or_concat l with rfl | ⟨l, y, rfl⟩
  · exact h
  · rw [concat_eq_append] at h ⊢
    rw [modifyLast_concat]
    simp only [forall_mem_append, forall_mem_singleton] at h ⊢
    exact ⟨h.1, hf y h.2⟩

lemma compilerInvariant_codeOk (S : Services W) (D : Discipline A) :
    CompilerInvariant S D (fun c => ∀ code ∈ c.codePool, D.CodeOk code) fun _ _ => True where
  scopes _ h := h
  macros _ h := h
  gensym _ h := h
  code _ h hc := forall_mem_append.2 ⟨h, forall_mem_singleton.2 hc⟩
  named name h := forall_mem_modifyLast (f := fun code => { code with name := some name }) (fun _ hc => hc) h
  included _ h := h
  expanded _ _ _ h _ := h
  failed _ _ _ _ _ := trivial
  error _ _ := trivial

theorem compileTopLevel_shaped {S : Services W} {fuel id : ℕ} {exprs : List Value} {c c' : Compiler W}
    (hc : ∀ code ∈ c.codePool, code.Shaped) (h : compileTopLevel S fuel exprs c = some (.ok id, c')) :
    ∀ code ∈ c'.codePool, code.Shaped := fun code hcode A D =>
  ((compileTopLevel_yields (compilerInvariant_codeOk S D) fuel exprs c fun code hm => hc code hm A D).of_ok h).1 code
    hcode

end Mae.Scheme
