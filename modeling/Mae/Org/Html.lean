import Mathlib

/-! The element tree of a rendered page, its HTML, and a reader of that HTML. -/

namespace Mae.Org

open List Option

inductive Tag where
  | a | blockquote | br | caption | code | dd | del | div | dl | dt | em | figcaption | figure | h1 | h2 | h3 | h4 | h5
  | h6 | hr | img | li | ol | p | pre | sectioning | span | strong | sub | sup | table | tbody | td | th | thead | time
  | tr | ul
  deriving DecidableEq

namespace Tag

def tags : List Tag :=
  [a, blockquote, br, caption, code, dd, del, div, dl, dt, em, figcaption, figure, h1, h2, h3, h4, h5, h6, hr, img, li,
    ol, p, pre, sectioning, span, strong, sub, sup, table, tbody, td, th, thead, time, tr, ul]

def asStr : Tag → List Char
  | a => "a".toList
  | blockquote => "blockquote".toList
  | br => "br".toList
  | caption => "caption".toList
  | code => "code".toList
  | dd => "dd".toList
  | del => "del".toList
  | div => "div".toList
  | dl => "dl".toList
  | dt => "dt".toList
  | em => "em".toList
  | figcaption => "figcaption".toList
  | figure => "figure".toList
  | h1 => "h1".toList
  | h2 => "h2".toList
  | h3 => "h3".toList
  | h4 => "h4".toList
  | h5 => "h5".toList
  | h6 => "h6".toList
  | hr => "hr".toList
  | img => "img".toList
  | li => "li".toList
  | ol => "ol".toList
  | p => "p".toList
  | pre => "pre".toList
  | sectioning => "section".toList
  | span => "span".toList
  | strong => "strong".toList
  | sub => "sub".toList
  | sup => "sup".toList
  | table => "table".toList
  | tbody => "tbody".toList
  | td => "td".toList
  | th => "th".toList
  | thead => "thead".toList
  | time => "time".toList
  | tr => "tr".toList
  | ul => "ul".toList

def isVoid : Tag → Bool
  | br | hr | img => true
  | _ => false

end Tag

inductive Attr where
  | classes | id | href | src | alt | value | scope | dataOrgRel | dataOrgW | dataOrgC | dataOrgBlock
  deriving DecidableEq

namespace Attr

def attrs : List Attr :=
  [classes, id, href, src, alt, value, scope, dataOrgRel, dataOrgW, dataOrgC, dataOrgBlock]

def asStr : Attr → List Char
  | classes => "class".toList
  | id => "id".toList
  | href => "href".toList
  | src => "src".toList
  | alt => "alt".toList
  | value => "value".toList
  | scope => "scope".toList
  | dataOrgRel => "data-org-rel".toList
  | dataOrgW => "data-org-w".toList
  | dataOrgC => "data-org-c".toList
  | dataOrgBlock => "data-org-block".toList

end Attr

abbrev Attrs := List (Attr × List Char)

inductive Node where
  | element (tag : Tag) (attrs : Attrs) (children : List Node)
  | text (t : List Char)

def push (out : List Node) : Node → List Node
  | .text t =>
    if t = [] then out
    else match out.getLast? with
      | some (.text prev) => out.dropLast ++ [.text (prev ++ t)]
      | _ => out ++ [.text t]
  | e => out ++ [e]

def escapeChar (attr : Bool) (c : Char) : List Char :=
  if c = '&' then "&amp;".toList
  else if c = '<' then "&lt;".toList
  else if c = '>' then "&gt;".toList
  else if c = '"' ∧ attr then "&quot;".toList
  else [c]

def escape (s : List Char) (attr : Bool) : List Char := s.flatMap (escapeChar attr)

def attrHtml (p : Attr × List Char) : List Char := ' ' :: p.1.asStr ++ "=\"".toList ++ escape p.2 true ++ ['"']

mutual

def Node.html : Node → List Char
  | .text t => escape t false
  | .element tag attrs children =>
    '<' :: tag.asStr ++ (attrs.flatMap attrHtml ++ ['>']) ++
      if tag.isVoid then [] else toHtml children ++ ("</".toList ++ tag.asStr ++ ['>'])

def toHtml : List Node → List Char
  | [] => []
  | n :: nodes => n.html ++ toHtml nodes

end

/-! ### Reading HTML -/

inductive Token where
  | startTag (tag : Tag) (attrs : Attrs)
  | endTag (tag : Tag)
  | text (t : List Char)

def decode : List Char → List Char
  | [] => []
  | '&' :: 'a' :: 'm' :: 'p' :: ';' :: rest => '&' :: decode rest
  | '&' :: 'l' :: 't' :: ';' :: rest => '<' :: decode rest
  | '&' :: 'g' :: 't' :: ';' :: rest => '>' :: decode rest
  | '&' :: 'q' :: 'u' :: 'o' :: 't' :: ';' :: rest => '"' :: decode rest
  | c :: rest => c :: decode rest

def isNameChar (c : Char) : Bool := c.isAlphanum || c == '-'

/-- What the tokenizer is inside of, with the characters it has read of it. -/
inductive Mode where
  | data (raw : List Char)
  | tagName (name : List Char)
  | endTagName (name : List Char)
  | attrName (tag : Tag) (attrs : Attrs) (name : List Char)
  | beforeValue (tag : Tag) (attrs : Attrs) (attr : Attr)
  | value (tag : Tag) (attrs : Attrs) (attr : Attr) (raw : List Char)
  | afterValue (tag : Tag) (attrs : Attrs)

def flush (raw : List Char) : List Token := if raw = [] then [] else [.text (decode raw)]

def insideTag (tag : Tag) (attrs : Attrs) (c : Char) : Option (Mode × List Token) :=
  if c = ' ' then some (.attrName tag attrs [], [])
  else if c = '>' then some (.data [], [.startTag tag attrs])
  else none

def Mode.next (c : Char) : Mode → Option (Mode × List Token)
  | .data raw => if c = '<' then some (.tagName [], flush raw) else some (.data (raw ++ [c]), [])
  | .tagName name =>
    if isNameChar c then some (.tagName (name ++ [c]), [])
    else if c = '/' ∧ name = [] then some (.endTagName [], [])
    else (Tag.tags.find? (·.asStr = name)).bind fun tag => insideTag tag [] c
  | .endTagName name =>
    if isNameChar c then some (.endTagName (name ++ [c]), [])
    else if c = '>' then (Tag.tags.find? (·.asStr = name)).map fun tag => (.data [], [.endTag tag])
    else none
  | .attrName tag attrs name =>
    if isNameChar c then some (.attrName tag attrs (name ++ [c]), [])
    else if c = '=' then (Attr.attrs.find? (·.asStr = name)).map fun attr => (.beforeValue tag attrs attr, [])
    else none
  | .beforeValue tag attrs attr => if c = '"' then some (.value tag attrs attr [], []) else none
  | .value tag attrs attr raw =>
    if c = '"' then some (.afterValue tag (attrs ++ [(attr, decode raw)]), [])
    else some (.value tag attrs attr (raw ++ [c]), [])
  | .afterValue tag attrs => insideTag tag attrs c

def scan (s : Mode × List Token) (html : List Char) : Option (Mode × List Token) :=
  html.foldlM (fun s c => (s.1.next c).map fun r => (r.1, s.2 ++ r.2)) s

def tokenize (html : List Char) : Option (List Token) :=
  match scan (.data [], []) html with
  | some (.data raw, out) => some (out ++ flush raw)
  | _ => none

structure Level where
  nodes : List Node
  opened : List (Tag × Attrs × List Node)

def Level.step (l : Level) : Token → Option Level
  | .text t => some { l with nodes := l.nodes ++ [.text t] }
  | .startTag tag attrs =>
    if tag.isVoid then some { l with nodes := l.nodes ++ [.element tag attrs []] }
    else some ⟨[], (tag, attrs, l.nodes) :: l.opened⟩
  | .endTag tag =>
    match l.opened with
    | (tag', attrs, before) :: opened =>
      if tag' = tag then some ⟨before ++ [.element tag attrs l.nodes], opened⟩ else none
    | [] => none

def build (tokens : List Token) : Option Level := tokens.foldlM Level.step ⟨[], []⟩

def readHtml (html : List Char) : Option (List Node) := do
  let tokens ← tokenize html
  let level ← build tokens
  if level.opened = [] then some level.nodes else none

def Token.mark : Token → Option (Tag × Option (List Attr))
  | .startTag tag attrs => some (tag, some (attrs.map Prod.fst))
  | .endTag tag => some (tag, none)
  | .text _ => none

def marks (html : List Char) : Option (List (Tag × Option (List Attr))) :=
  (tokenize html).map (List.filterMap Token.mark)

/-! ### Trees that can be read back -/

def Node.isText : Node → Bool
  | .text _ => true
  | .element .. => false

mutual

def Node.readable : Node → Bool
  | .text t => t != []
  | .element tag _ children => (!tag.isVoid || children.isEmpty) && readable children

def readable : List Node → Bool
  | [] => true
  | n :: nodes => n.readable && readable nodes && !(n.isText && nodes.head?.any Node.isText)

end

mutual

def Node.shape : Node → Node
  | .text _ => .text []
  | .element tag attrs children => .element tag (attrs.map fun p => (p.1, [])) (shapes children)

def shapes : List Node → List Node
  | [] => []
  | n :: nodes => n.shape :: shapes nodes

end

mutual

def Node.marks : Node → List (Tag × Option (List Attr))
  | .text _ => []
  | .element tag attrs children =>
    (tag, some (attrs.map Prod.fst)) :: if tag.isVoid then [] else marksOf children ++ [(tag, none)]

def marksOf : List Node → List (Tag × Option (List Attr))
  | [] => []
  | n :: nodes => n.marks ++ marksOf nodes

end

mutual

lemma Node.marks_shape : ∀ n : Node, n.shape.marks = n.marks
  | .text _ => rfl
  | .element tag attrs children => by
    simp [Node.shape, Node.marks, marksOf_shapes children, List.map_map, Function.comp_def]

lemma marksOf_shapes : ∀ nodes : List Node, marksOf (shapes nodes) = marksOf nodes
  | [] => rfl
  | n :: nodes => by simp [shapes, marksOf, n.marks_shape, marksOf_shapes nodes]

end

/-! ### Characters -/

lemma decode_cons {c : Char} (hc : c ≠ '&') (rest : List Char) : decode (c :: rest) = c :: decode rest := by
  rw [decode] <;> simp [hc]

lemma decode_escapeChar (attr : Bool) (c : Char) (rest : List Char) :
    decode (escapeChar attr c ++ rest) = c :: decode rest := by
  unfold escapeChar
  split_ifs with hamp hlt hgt hquot
  · rw [hamp]; rfl
  · rw [hlt]; rfl
  · rw [hgt]; rfl
  · rw [hquot.1]; rfl
  · exact decode_cons hamp rest

lemma decode_escape (s : List Char) (attr : Bool) : decode (escape s attr) = s := by
  induction s with
  | nil => rfl
  | cons c s ih =>
    show decode (escapeChar attr c ++ escape s attr) = c :: s
    rw [decode_escapeChar, ih]

lemma escapeChar_ne_nil (attr : Bool) (c : Char) : escapeChar attr c ≠ [] := by
  unfold escapeChar
  split_ifs <;> simp

lemma escape_eq_nil {s : List Char} {attr : Bool} : escape s attr = [] ↔ s = [] := by
  cases s <;> simp [escape, escapeChar_ne_nil]

lemma open_notMem_escape (s : List Char) (attr : Bool) : ∀ c ∈ escape s attr, c ≠ '<' := by
  simp only [escape, mem_flatMap]
  rintro c ⟨d, -, hd⟩ rfl
  unfold escapeChar at hd
  split_ifs at hd <;> simp_all [eq_comm]

lemma quote_notMem_escape (s : List Char) : ∀ c ∈ escape s true, c ≠ '"' := by
  simp only [escape, mem_flatMap]
  rintro c ⟨d, -, hd⟩ rfl
  unfold escapeChar at hd
  split_ifs at hd <;> simp_all [eq_comm]

lemma Tag.find_asStr (t : Tag) : Tag.tags.find? (·.asStr = t.asStr) = some t := by
  cases t <;> rfl

lemma Attr.find_asStr (t : Attr) : Attr.attrs.find? (·.asStr = t.asStr) = some t := by
  cases t <;> rfl

lemma Tag.nameChars (t : Tag) : ∀ c ∈ t.asStr, isNameChar c :=
  List.all_eq_true.1 (by cases t <;> rfl)

lemma Attr.nameChars (t : Attr) : ∀ c ∈ t.asStr, isNameChar c :=
  List.all_eq_true.1 (by cases t <;> rfl)

/-! ### Reading the output -/

lemma scan_append (s : Mode × List Token) (a b : List Char) : scan s (a ++ b) = (scan s a).bind (scan · b) :=
  foldlM_append

lemma scan_cons (m : Mode) (out : List Token) (c : Char) (html : List Char) :
    scan (m, out) (c :: html) = (m.next c).bind fun r => scan (r.1, out ++ r.2) html := by
  cases h : m.next c <;> simp [scan, h]

lemma scan_collect {P : Char → Prop} {K : List Char → Mode}
    (hK : ∀ raw c, P c → (K raw).next c = some (K (raw ++ [c]), [])) (out : List Token) {cs : List Char}
    (hcs : ∀ c ∈ cs, P c) (raw : List Char) : scan (K raw, out) cs = some (K (raw ++ cs), out) := by
  induction cs generalizing raw with
  | nil => rw [append_nil]; rfl
  | cons c cs ih =>
    rw [scan_cons, hK raw c (hcs c (by simp)), bind_some, append_nil, ih fun d hd => hcs d (by simp [hd])]
    simp

lemma scan_text (raw : List Char) (out : List Token) (t : List Char) :
    scan (.data raw, out) (escape t false) = some (.data (raw ++ escape t false), out) :=
  scan_collect (K := .data) (fun _ _ hc => if_neg hc) out (open_notMem_escape t false) raw

def Inside (m : Mode) (tag : Tag) (attrs : Attrs) : Prop := ∀ c ∈ [' ', '>'], m.next c = insideTag tag attrs c

lemma inside_tagName (tag : Tag) : Inside (.tagName tag.asStr) tag [] := by
  intro c hc
  have hname : isNameChar c = false ∧ c ≠ '/' := by
    simp only [mem_cons, not_mem_nil, or_false] at hc
    rcases hc with rfl | rfl <;> exact ⟨rfl, by decide⟩
  simp [Mode.next, hname, Tag.find_asStr]

lemma scan_attrs {m : Mode} {tag : Tag} {done : Attrs} (hm : Inside m tag done) (attrs : Attrs) (out : List Token) :
    scan (m, out) (attrs.flatMap attrHtml ++ ['>']) = some (.data [], out ++ [.startTag tag (done ++ attrs)]) := by
  induction attrs generalizing m done with
  | nil =>
    rw [flatMap_nil, nil_append, scan_cons, hm '>' (by simp), append_nil]
    rfl
  | cons p attrs ih =>
    obtain ⟨a, v⟩ := p
    have hname : scan (.attrName tag done [], out) a.asStr = some (.attrName tag done a.asStr, out) :=
      scan_collect (K := .attrName tag done) (fun _ _ hc => if_pos hc) out a.nameChars []
    have heq : scan (.attrName tag done a.asStr, out) "=\"".toList = some (.value tag done a [], out) := by
      show scan _ ['=', '"'] = _
      have hnext : (Mode.attrName tag done a.asStr).next '=' = some (.beforeValue tag done a, []) := by
        simp [Mode.next, Attr.find_asStr, show isNameChar '=' = false from rfl]
      rw [scan_cons, hnext]
      simp [Mode.next, scan]
    have hvalue : scan (.value tag done a [], out) (escape v true) = some (.value tag done a (escape v true), out) :=
      scan_collect (K := .value tag done a) (fun _ _ hc => if_neg hc) out (quote_notMem_escape v) []
    have hclose : (Mode.value tag done a (escape v true)).next '"' =
        some (.afterValue tag (done ++ [(a, v)]), []) := by
      simp [Mode.next, decode_escape]
    have hinside : Inside (.afterValue tag (done ++ [(a, v)])) tag (done ++ [(a, v)]) := fun _ _ => rfl
    rw [flatMap_cons, attrHtml]
    simp only [append_assoc, cons_append]
    rw [scan_cons, hm ' ' (by simp)]
    show scan (.attrName tag done [], out ++ []) _ = _
    rw [append_nil, scan_append, hname, bind_some, scan_append, heq, bind_some, scan_append, hvalue,
      bind_some, scan_cons, hclose, bind_some, append_nil, nil_append, ih hinside]
    simp

lemma scan_startTag (raw : List Char) (out : List Token) (tag : Tag) (attrs : Attrs) :
    scan (.data raw, out) ('<' :: tag.asStr ++ (attrs.flatMap attrHtml ++ ['>'])) =
      some (.data [], out ++ flush raw ++ [.startTag tag attrs]) := by
  have hname : scan (.tagName [], out ++ flush raw) tag.asStr = some (.tagName tag.asStr, out ++ flush raw) :=
    scan_collect (K := .tagName) (fun _ _ hc => if_pos hc) _ tag.nameChars []
  rw [cons_append]
  show scan (.tagName [], out ++ flush raw) _ = _
  rw [scan_append, hname, bind_some, scan_attrs (inside_tagName tag), nil_append]

lemma scan_endTag (raw : List Char) (out : List Token) (tag : Tag) :
    scan (.data raw, out) ("</".toList ++ tag.asStr ++ ['>']) = some (.data [], out ++ flush raw ++ [.endTag tag]) := by
  have hopen : scan (.data raw, out) "</".toList = some (.endTagName [], out ++ flush raw) := by
    show scan _ ['<', '/'] = _
    show scan (.tagName [], out ++ flush raw) ['/'] = _
    simp [Mode.next, scan, show isNameChar '/' = false from rfl]
  have hname : scan (.endTagName [], out ++ flush raw) tag.asStr = some (.endTagName tag.asStr, out ++ flush raw) :=
    scan_collect (K := .endTagName) (fun _ _ hc => if_pos hc) _ tag.nameChars []
  rw [scan_append, scan_append, hopen, bind_some, hname]
  simp [Mode.next, scan, Tag.find_asStr, show isNameChar '>' = false from rfl]

def Level.add (l : Level) (nodes : List Node) : Level := { l with nodes := l.nodes ++ nodes }

lemma build_append_singleton (tokens : List Token) (t : Token) :
    build (tokens ++ [t]) = (build tokens).bind (·.step t) := by
  simp [build, foldlM_append]

structure Scanned (raw : List Char) (out : List Token) (nodes : List Node) (html raw' : List Char) (out' : List Token) :
    Prop where
  scan_eq : scan (.data raw, out) html = some (.data raw', out')
  marks_eq : out'.filterMap Token.mark = out.filterMap Token.mark ++ marksOf nodes
  build_eq : readable nodes → (raw = [] ∨ nodes.head?.any Node.isText = false) →
    build (out' ++ flush raw') = (build (out ++ flush raw)).map (·.add nodes)

lemma mark_flush (raw : List Char) : (flush raw).filterMap Token.mark = [] := by
  unfold flush
  split_ifs <;> rfl

lemma build_append_of_step {tokens : List Token} {t : Token} {f : Level → Level} (h : ∀ l, l.step t = some (f l)) :
    build (tokens ++ [t]) = (build tokens).map f := by
  rw [build_append_singleton]
  cases build tokens with
  | none => rfl
  | some l => exact h l

lemma scanned_text (raw : List Char) (out : List Token) (t : List Char) :
    Scanned raw out [.text t] (escape t false) (raw ++ escape t false) out := by
  refine ⟨scan_text raw out t, by simp [marksOf, Node.marks], fun hread hraw => ?_⟩
  have hne : t ≠ [] := by simpa [readable, Node.readable] using hread
  have hnil : raw = [] := by simpa [Node.isText] using hraw
  have hflush : flush (escape t false) = [.text t] := by simp [flush, escape_eq_nil, hne, decode_escape]
  rw [hnil, nil_append, hflush, show flush [] = [] from rfl, append_nil]
  exact build_append_of_step fun l => rfl

lemma scanned_void {tag : Tag} (hvoid : tag.isVoid) (raw : List Char) (out : List Token) (attrs : Attrs)
    (children : List Node) : Scanned raw out [.element tag attrs children]
      (Node.element tag attrs children).html [] (out ++ flush raw ++ [.startTag tag attrs]) := by
  refine ⟨?_, ?_, fun hread _ => ?_⟩
  · rw [Node.html, if_pos hvoid, append_nil, scan_startTag]
  · simp [mark_flush, marksOf, Node.marks, hvoid, Token.mark]
  · have hchildren : children = [] := by
      simp only [readable, Node.readable, hvoid, Bool.and_eq_true] at hread
      simpa using hread.1.1.1
    rw [hchildren, show flush [] = [] from rfl, append_nil]
    exact build_append_of_step fun l => if_pos hvoid

lemma Scanned.element {tag : Tag} (hvoid : tag.isVoid = false) {raw raw' : List Char} {out out' : List Token}
    {attrs : Attrs} {children : List Node}
    (h : Scanned [] (out ++ flush raw ++ [.startTag tag attrs]) children (toHtml children) raw' out') :
    Scanned raw out [.element tag attrs children] (Node.element tag attrs children).html []
      (out' ++ flush raw' ++ [.endTag tag]) := by
  refine ⟨?_, ?_, fun hread _ => ?_⟩
  · rw [Node.html, hvoid, if_neg Bool.false_ne_true, scan_append, scan_startTag, bind_some, scan_append,
      h.scan_eq, bind_some, scan_endTag]
  · simp [h.marks_eq, mark_flush, marksOf, Node.marks, hvoid, Token.mark]
  · have hchildren : readable children := by
      simp only [readable, Node.readable, Bool.and_eq_true] at hread
      exact hread.1.1.2
    have hopened : build (out ++ flush raw ++ [.startTag tag attrs]) =
        (build (out ++ flush raw)).map fun l => ⟨[], (tag, attrs, l.nodes) :: l.opened⟩ :=
      build_append_of_step fun l => if_neg (by simp [hvoid])
    rw [show flush [] = [] from rfl, append_nil, build_append_singleton, h.build_eq hchildren (.inl rfl),
      show flush [] = [] from rfl, append_nil, hopened]
    cases build (out ++ flush raw) with
    | none => rfl
    | some l => simp [Level.add, Level.step]

lemma Scanned.cons {n : Node} {nodes : List Node} {raw raw₁ raw₂ : List Char} {out out₁ out₂ : List Token}
    (hn : Scanned raw out [n] n.html raw₁ out₁) (htext : n.isText = false → raw₁ = [])
    (h : Scanned raw₁ out₁ nodes (toHtml nodes) raw₂ out₂) :
    Scanned raw out (n :: nodes) (toHtml (n :: nodes)) raw₂ out₂ := by
  refine ⟨?_, ?_, fun hread hraw => ?_⟩
  · rw [toHtml, scan_append, hn.scan_eq, bind_some, h.scan_eq]
  · simp [h.marks_eq, hn.marks_eq, marksOf]
  · obtain ⟨⟨hnode, hnodes⟩, hadjacent⟩ : (n.readable ∧ readable nodes) ∧
        (n.isText = false ∨ nodes.head?.any Node.isText = false) := by
      simpa [readable] using hread
    rw [h.build_eq hnodes (hadjacent.imp_left htext), hn.build_eq (by simp [readable, hnode]) (by simpa using hraw),
      Option.map_map]
    congr 1
    funext l
    simp [Level.add]

mutual

lemma Node.scanned : ∀ (n : Node) (raw : List Char) (out : List Token),
    ∃ raw' out', Scanned raw out [n] n.html raw' out' ∧ (n.isText = false → raw' = [])
  | .text t, raw, out => ⟨_, _, scanned_text raw out t, fun h => by simp [Node.isText] at h⟩
  | .element tag attrs children, raw, out => by
    cases hvoid : tag.isVoid with
    | true => exact ⟨_, _, scanned_void hvoid raw out attrs children, fun _ => rfl⟩
    | false =>
      obtain ⟨raw', out', hchildren⟩ := scanned children [] (out ++ flush raw ++ [.startTag tag attrs])
      exact ⟨_, _, hchildren.element hvoid, fun _ => rfl⟩

lemma scanned : ∀ (nodes : List Node) (raw : List Char) (out : List Token),
    ∃ raw' out', Scanned raw out nodes (toHtml nodes) raw' out'
  | [], raw, out => ⟨raw, out, rfl, by simp [marksOf], fun _ _ => by simp [Level.add]⟩
  | n :: nodes, raw, out => by
    obtain ⟨raw₁, out₁, hn, htext⟩ := n.scanned raw out
    obtain ⟨raw2, out2, hnodes⟩ := scanned nodes raw₁ out₁
    exact ⟨raw2, out2, hn.cons htext hnodes⟩

end

lemma tokenize_of_scan {html raw : List Char} {out : List Token} (h : scan (.data [], []) html = some (.data raw, out)) :
    tokenize html = some (out ++ flush raw) := by
  rw [tokenize, h]

lemma marks_toHtml (nodes : List Node) : marks (toHtml nodes) = some (marksOf nodes) := by
  obtain ⟨raw, out, h⟩ := scanned nodes [] []
  simp [marks, tokenize_of_scan h.scan_eq, h.marks_eq, mark_flush]

/-- Reading the output back yields the nodes, and the tags in it do not depend on texts and attribute values. -/
theorem html_carries_the_tree (nodes : List Node) : (readable nodes → readHtml (toHtml nodes) = some nodes) ∧
      ∃ tags, marks (toHtml nodes) = some tags ∧
        ∀ others, shapes others = shapes nodes → marks (toHtml others) = some tags := by
  refine ⟨fun hread => ?_, marksOf nodes, marks_toHtml nodes, fun others hshape => ?_⟩
  · obtain ⟨raw, out, h⟩ := scanned nodes [] []
    have hbuild := h.build_eq hread (.inl rfl)
    simp only [readHtml, tokenize_of_scan h.scan_eq, bind_eq_bind, bind_some, hbuild]
    simp [build, flush, Level.add]
  · rw [marks_toHtml, ← marksOf_shapes others, hshape, marksOf_shapes]

def hostileLink : List Node :=
  [.text "<p> & ".toList, .element .a [(.href, "\">".toList)] [.text "&lt;".toList, .element .br [] []]]

theorem html_carries_hostile_link : readable hostileLink ∧ readHtml (toHtml hostileLink) = some hostileLink :=
  ⟨rfl, (html_carries_the_tree hostileLink).1 rfl⟩

end Mae.Org
