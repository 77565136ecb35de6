import Mae.Scheme.Store

/-! Libraries: the forms `define-library` and `import`, and what an import set binds. -/

namespace Mae.Scheme

open Std (ExtTreeMap)

structure LibraryName where
  parts : List String
  deriving DecidableEq, Repr, Inhabited

inductive ImportBindings where
  | all
  | allExcept (names : List String)
  | allPrefixed (stem : String)
  | allRenamed (renames : ExtTreeMap String String)
  | explicit (names : ExtTreeMap String String)

structure ImportSet where
  library : LibraryName
  bindings : ImportBindings

structure LibraryDef where
  name : LibraryName
  exports : ExtTreeMap String String
  imports : List ImportSet
  body : List Value

structure SchemeLibrary where
  name : LibraryName
  exports : Env

namespace LibraryName

def toText (n : LibraryName) : String := "(" ++ " ".intercalate n.parts ++ ")"

def ofItem (v : Value) : Except LispError String :=
  match v with
  | .symbol s => .ok s
  | .int n => .ok (toString n)
  | v => .error (.syntaxErrorIn "library name component must be identifier or integer" v)

def ofValue (v : Value) : Except LispError LibraryName :=
  match v.toList? with
  | none => .error (.syntaxErrorIn "library name must be a list" v)
  | some [] => .error (.syntaxErrorIn "library name must be non-empty" .null)
  | some items => do
    let parts ← items.mapM ofItem
    return ⟨parts⟩

end LibraryName

def identifier (message : String) (v : Value) : Except LispError String :=
  match v with
  | .symbol s => .ok s
  | v => .error (.syntaxErrorIn message v)

def parseExportSpecs (exports : ExtTreeMap String String) : List Value → Except LispError (ExtTreeMap String String)
  | [] => .ok exports
  | spec :: specs =>
    match spec with
    | .symbol name => parseExportSpecs (exports.insert name name) specs
    | spec =>
      match spec.toList? with
      | some [.symbol "rename", inner, outer] => do
        let inner ← identifier "export rename: expected identifier" inner
        let outer ← identifier "export rename: expected identifier" outer
        parseExportSpecs (exports.insert outer inner) specs
      | _ => .error (.syntaxErrorIn "invalid export spec" spec)

namespace ImportSet

def only (s : ImportSet) (ids : List String) : Except LispError ImportSet :=
  match s.bindings with
  | .explicit existing => do
    let names ← ids.foldlM (fun names id =>
      match existing[id]? with
      | some source => .ok (names.insert id source)
      | none => .error (LispError.syntaxError ("only: identifier '" ++ id ++ "' not in import set")))
      (∅ : ExtTreeMap String String)
    return ⟨s.library, .explicit names⟩
  | _ => .ok ⟨s.library, .explicit (ids.foldl (fun names id => names.insert id id) ∅)⟩

def except (s : ImportSet) (excluded : List String) : ImportSet :=
  match s.bindings with
  | .all => ⟨s.library, .allExcept excluded⟩
  | .allExcept names => ⟨s.library, .allExcept (names ++ excluded)⟩
  | .explicit existing => ⟨s.library, .explicit (excluded.foldl (fun names id => names.erase id) existing)⟩
  | _ => s

def prefixed (s : ImportSet) (stem : String) : ImportSet :=
  match s.bindings with
  | .explicit existing =>
    ⟨s.library, .explicit (existing.foldl (fun names id source => names.insert (stem ++ id) source) ∅)⟩
  | _ => ⟨s.library, .allPrefixed stem⟩

def renamed (s : ImportSet) (renames : ExtTreeMap String String) : ImportSet :=
  match s.bindings with
  | .explicit existing =>
    ⟨s.library, .explicit (existing.foldl (fun names id source => names.insert (renames.getD id id) source) ∅)⟩
  | _ => ⟨s.library, .allRenamed renames⟩

end ImportSet

def parseRenames (renames : ExtTreeMap String String) : List Value → Except LispError (ExtTreeMap String String)
  | [] => .ok renames
  | p :: ps =>
    match p.toList? with
    | some [old, new] => do
      let old ← identifier "rename: expected identifier" old
      let new ← identifier "rename: expected identifier" new
      parseRenames (renames.insert old new) ps
    | _ => .error (.syntaxErrorIn "rename: expected (old new) pair" p)

def parseImportSet (form : Value) : Except LispError ImportSet :=
  match form with
  | .null => .error (.syntaxError "empty import set")
  | .pair head rest =>
    match rest.toList? with
    | none => .error (.syntaxErrorIn "import set must be a list" (.pair head rest))
    | some args =>
      match head with
      | .symbol "only" =>
        match rest with
        | .pair inner _ => do
          let s ← parseImportSet inner
          let ids ← args.tail.mapM (identifier "only: expected identifier")
          s.only ids
        | _ => .error (.syntaxError "only: requires import-set and identifiers")
      | .symbol "except" =>
        match rest with
        | .pair inner _ => do
          let s ← parseImportSet inner
          let ids ← args.tail.mapM (identifier "except: expected identifier")
          return s.except ids
        | _ => .error (.syntaxError "except: requires import-set and identifiers")
      | .symbol "prefix" =>
        match rest with
        | .pair inner (.pair stem .null) => do
          let s ← parseImportSet inner
          let stem ← identifier "prefix: expected identifier" stem
          return s.prefixed stem
        | _ => .error (.syntaxError "prefix: requires import-set and prefix identifier")
      | .symbol "rename" =>
        match rest with
        | .pair inner _ => do
          let s ← parseImportSet inner
          let renames ← parseRenames ∅ args.tail
          return s.renamed renames
        | _ => .error (.syntaxError "rename: requires import-set")
      | _ => do
        let name ← LibraryName.ofValue (.pair head rest)
        return ⟨name, .all⟩
  | v => .error (.syntaxErrorIn "import set must be a list" v)

def parseTopLevelImport (items : List Value) : Except LispError (List ImportSet) :=
  match items with
  | _ :: forms@(_ :: _) => forms.mapM parseImportSet
  | _ => .error (.syntaxError "import requires at least one import set")

def parseDeclaration (lib : LibraryDef) (decl : Value) : Except LispError LibraryDef :=
  match decl.toList? with
  | none => .error (.syntaxErrorIn "library declaration must be a list" decl)
  | some [] => .ok lib
  | some (.symbol "export" :: specs) => do
    let exports ← parseExportSpecs lib.exports specs
    return { lib with exports := exports }
  | some (.symbol "import" :: forms) => do
    let imports ← forms.mapM parseImportSet
    return { lib with imports := lib.imports ++ imports }
  | some (.symbol "begin" :: body) => .ok { lib with body := lib.body ++ body }
  | some _ => .error (.syntaxErrorIn "unknown library declaration" decl)

def parseDefineLibrary (items : List Value) : Except LispError LibraryDef :=
  match items with
  | _ :: name :: decls => do
    let name ← LibraryName.ofValue name
    decls.foldlM parseDeclaration ⟨name, ∅, [], []⟩
  | _ => .error (.syntaxErrorIn "define-library requires a name" (.list items))

def resolveImport (s : ImportSet) (lib : SchemeLibrary) : Except LispError Env :=
  match s.bindings with
  | .all => .ok lib.exports
  | .allExcept names => .ok (lib.exports.filter fun name _ => !names.contains name)
  | .allPrefixed stem => .ok (lib.exports.foldl (fun env name v => env.insert (stem ++ name) v) ∅)
  | .allRenamed renames => .ok (lib.exports.foldl (fun env name v => env.insert (renames.getD name name) v) ∅)
  | .explicit names =>
    names.toList.foldlM (fun env p =>
      match lib.exports[p.2]? with
      | some v => .ok (env.insert p.1 v)
      | none => .error (LispError.syntaxError ("import: '" ++ p.2 ++ "' not exported from " ++ s.library.toText)))
      (∅ : Env)

end Mae.Scheme
