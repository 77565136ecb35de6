import Mae.Scheme.Rules

/-! Programs that are evaluated in one piece and in two. -/

namespace Mae.Scheme

open Library Exec

variable {W : Type}

def isDirective (datum : Value) : Bool :=
  match datum.toList? with
  | some (.symbol "import" :: _) => true
  | some (.symbol "define-library" :: _) => true
  | some [.symbol "load", _] => true
  | _ => false

def Host.Reads (host : Host W) (source : String) (datums : List Value) : Prop :=
  ∀ w, host.readAll source w = (.ok datums, w)

section

variable (host : Host W) (self : Calls W) (fuel : ℕ)

lemma topLevelForms_append (first second : List Value) : topLevelForms host self fuel (first ++ second) = do
      let forms ← topLevelForms host self fuel first
      let more ← topLevelForms host self fuel second
      return forms ++ more := by
  induction first with
  | nil => simp [topLevelForms]
  | cons datum first ih =>
    rw [List.cons_append]
    simp only [topLevelForms]
    split <;> simp [ih]

lemma topLevelForms_directives {datums : List Value} (h : ∀ datum ∈ datums, isDirective datum = true) (m : Vm W) :
    wp (topLevelForms host self fuel datums) m (fun forms _ => forms = []) fun _ _ => True := by
  induction datums generalizing m with
  | nil => rfl
  | cons datum datums ih =>
    have hrest := fun d hd => h d (List.mem_cons_of_mem datum hd)
    have hdatum := h datum List.mem_cons_self
    rw [topLevelForms]
    split
    · rw [wp_bind]
      exact wp_of_forall (fun _ t => ih hrest t) fun _ _ => trivial
    · rw [wp_bind]
      exact wp_of_forall (fun _ t => ih hrest t) fun _ _ => trivial
    · rw [wp_bind]
      exact wp_of_forall (fun _ t => ih hrest t) fun _ _ => trivial
    · rename_i himport hlibrary hload
      rw [isDirective] at hdatum
      split at hdatum
      · rename_i rest hd
        exact absurd hd (himport rest)
      · rename_i rest hd
        exact absurd hd (hlibrary rest)
      · rename_i file hd
        exact absurd hd (hload file)
      · simp at hdatum

end

variable {host : Host W} {first second both : String} {A B : List Value}

lemma submit_of_reads {self : Calls W} {fuel : ℕ} (h : host.Reads first A) : submit host self fuel first = do
      let forms ← topLevelForms host self fuel A
      if forms.isEmpty then return none
      let id ← compileForms host self fuel forms
      return some id := by
  funext m
  have hread : onWorld (host.readAll first) m = some (.ok A, m) := by
    simp [onWorld, h m.store.world, Vm.setWorld, Vm.mapStore]
  rw [submit, bind_of_ok hread]

def definesX : Value := .list [sym "define", sym "x", .int 1]

def loadsUse : Value := .list [sym "load", .string "use"]

def definesLibrary : Value := .list [sym "define-library", .list [sym "empty"]]

def batchPrograms : Host SampleWorld :=
  { Host.primitive [("use", [.list [sym "display", sym "x"]]), ("define", [definesX]), ("load", [loadsUse]),
      ("define load", [definesX, loadsUse]), ("number", [.int 5]), ("library", [definesLibrary]),
      ("number library", [.int 5, definesLibrary]), ("library number", [definesLibrary, .int 5])] with
    readToString := fun path w => (.ok path, w) }

def inTwo (first second : String) : VmM SampleWorld Value := do
  let _ ← eval batchPrograms 60 first
  eval batchPrograms 60 second

def batchResult (x : VmM SampleWorld Value) : Option (Except LispError Value × List Value) :=
  (x .primitive).map fun p => (p.1, p.2.store.world.displayed)

end Mae.Scheme
