import Mathlib

/-! The text of an org document: its line endings, its lines, its normal form. Texts are their UTF-8 bytes. -/

namespace Mae.Org

open List

abbrev Text := List UInt8

def lineFeed : UInt8 := 0x0A

def carriageReturn : UInt8 := 0x0D

def bom : Text := [0xEF, 0xBB, 0xBF]

inductive LineEnding where
  | lf
  | crLf
  | cr
  deriving DecidableEq

namespace LineEnding

def detect (text : Text) : LineEnding :=
  let lf := (List.range text.length).filter fun i => text[i]? = some lineFeed
  if lf = [] then
    if carriageReturn ∈ text then .cr else .lf
  else if ∀ i ∈ lf, 0 < i ∧ text[i - 1]? = some carriageReturn then .crLf
  else .lf

def ending : LineEnding → Text
  | .lf => [lineFeed]
  | .crLf => [carriageReturn, lineFeed]
  | .cr => [carriageReturn]

def terminator : LineEnding → UInt8
  | .cr => carriageReturn
  | _ => lineFeed

end LineEnding

structure Line where
  start : ℕ
  stop : ℕ
  next : ℕ

variable {eol : LineEnding} {start : ℕ} {p q : Text} {b : UInt8} (text : Text)

def cut (eol : LineEnding) (start : ℕ) : Option (ℕ × ℕ) :=
  match (text.drop start).findIdx? (· == eol.terminator) with
  | some rel =>
    if eol = .crLf then
      if start + rel = 0 then none else some (start + rel - 1, start + rel + 1)
    else some (start + rel, start + rel + 1)
  | none => some (text.length, text.length)

lemma lt_of_cut {text : Text} {stop next : ℕ} (h : start < text.length) (hc : cut text eol start = some (stop, next)) :
    start < next := by
  unfold cut at hc
  split at hc
  · split_ifs at hc <;> simp only [Option.some.injEq, Prod.mk.injEq] at hc <;> omega
  · simp only [Option.some.injEq, Prod.mk.injEq] at hc
    omega

def splitLines (text : Text) (start : ℕ) (eol : LineEnding) : Option (List Line) :=
  if h : start < text.length then
    match hc : cut text eol start with
    | none => none
    | some (stop, next) => (splitLines text next eol).map (⟨start, max stop start, next⟩ :: ·)
  else some []
termination_by text.length - start
decreasing_by
  have := lt_of_cut h hc
  omega

structure Source where
  text : Text
  eol : LineEnding
  lines : List Line
  bom : ℕ

namespace Source

def readWith (text : Text) (eol : LineEnding) (atFileStart : Bool) : Option Source :=
  let skip := if atFileStart && Org.bom.isPrefixOf text then Org.bom.length else 0
  (splitLines text skip eol).map fun lines => ⟨text, eol, lines, skip⟩

def new (text : Text) : Option Source := readWith text (LineEnding.detect text) true

def content (s : Source) (l : Line) : Text := (s.text.drop l.start).take (l.stop - l.start)

def contents (s : Source) : List Text := s.lines.map s.content

end Source

/-- `text.replace("\r\n", "\n")`. -/
def replaceCrLf : Text → Text
  | [] => []
  | [b] => [b]
  | b :: c :: rest =>
    if b = carriageReturn ∧ c = lineFeed then lineFeed :: replaceCrLf rest else b :: replaceCrLf (c :: rest)

def toLf : LineEnding → Text
  | .lf => text
  | .crLf => replaceCrLf text
  | .cr => text.map fun b => if b = carriageReturn then lineFeed else b

def stripBom : Text :=
  if bom.isPrefixOf text && !bom.isPrefixOf (text.drop bom.length) then text.drop bom.length else text

open LineEnding

def finish : Text :=
  let eol := detect text
  if text ≠ [] ∧ ¬ eol.ending <:+ text then text ++ eol.ending else text

def normalise : Text :=
  let text := stripBom text
  let eol := detect text
  let text := finish text
  let lf := toLf text eol
  if detect lf = .lf then lf else text

/-! ### Conventions -/

def Paired : Prop :=
  ∀ i, text[i]? = some lineFeed → 0 < i ∧ text[i - 1]? = some carriageReturn

def Unbroken : Prop := lineFeed ∉ text ∧ carriageReturn ∉ text

lemma lineFeed_ne : lineFeed ≠ carriageReturn := by decide

lemma bom_unbroken : Unbroken bom := by simp [Unbroken, bom, lineFeed, carriageReturn]

lemma no_feed_iff : ((List.range text.length).filter fun i => text[i]? = some lineFeed) = [] ↔ lineFeed ∉ text := by
  rw [filter_eq_nil_iff, mem_iff_getElem?]
  constructor
  · rintro h ⟨i, hi⟩
    have hlt := (List.getElem?_eq_some_iff.1 hi).1
    exact h i (mem_range.2 hlt) (by simpa using hi)
  · intro h i _ hi
    exact h ⟨i, by simpa using hi⟩

lemma paired_iff : Paired text ↔ ∀ i ∈ (List.range text.length).filter (fun i => text[i]? = some lineFeed),
      0 < i ∧ text[i - 1]? = some carriageReturn := by
  refine forall_congr' fun i => ?_
  simp only [mem_filter, mem_range, decide_eq_true_eq, and_imp]
  refine ⟨fun h _ => h, fun h hi => h ?_ hi⟩
  exact (List.getElem?_eq_some_iff.1 hi).1

open scoped Classical in
lemma detect_eq (text : Text) : detect text =
    if lineFeed ∉ text then if carriageReturn ∈ text then .cr else .lf
    else if Paired text then .crLf else .lf := by
  simp only [detect, no_feed_iff]
  by_cases hp : Paired text
  · rw [if_pos ((paired_iff text).1 hp), if_pos hp]
  · rw [if_neg fun h => hp ((paired_iff text).2 h), if_neg hp]

lemma detect_eq_cr_iff : detect text = .cr ↔ lineFeed ∉ text ∧ carriageReturn ∈ text := by
  rw [detect_eq]
  split_ifs <;> simp_all

lemma detect_eq_crLf_iff : detect text = .crLf ↔ lineFeed ∈ text ∧ Paired text := by
  rw [detect_eq]
  split_ifs <;> simp_all

open scoped Classical in
lemma detect_congr {a b : Text} (hf : lineFeed ∈ a ↔ lineFeed ∈ b) (hp : Paired a ↔ Paired b)
    (hc : carriageReturn ∈ a ↔ carriageReturn ∈ b) : detect a = detect b := by
  rw [detect_eq, detect_eq, if_congr hf.not (if_congr hc rfl rfl) (if_congr hp rfl rfl)]

lemma paired_iff_split {text : Text} :
    Paired text ↔ ∀ a b, text = a ++ lineFeed :: b → a.getLast? = some carriageReturn := by
  constructor
  · rintro h a b rfl
    obtain ⟨hpos, hlast⟩ := h a.length (by simp)
    rwa [getElem?_append_left (by omega), ← getLast?_eq_getElem?] at hlast
  · intro h i hi
    obtain ⟨hlt, hget⟩ := List.getElem?_eq_some_iff.1 hi
    have hlast := h (text.take i) (text.drop (i + 1)) (by rw [← hget, ← drop_eq_getElem_cons, take_append_drop])
    rw [getLast?_eq_getElem?, length_take, min_eq_left hlt.le] at hlast
    rcases i.eq_zero_or_pos with rfl | hpos
    · simp at hlast
    · exact ⟨hpos, by rwa [getElem?_take_of_lt (by omega)] at hlast⟩

lemma Paired.of_append (h : Paired (p ++ q)) (hp : p.getLast? ≠ some carriageReturn) : Paired q := by
  rw [paired_iff_split] at h ⊢
  rintro a b rfl
  have hlast := h (p ++ a) b (by simp)
  cases ha : a.getLast? with
  | none => exact absurd (by simpa [ha] using hlast) hp
  | some c => simpa [ha] using hlast

lemma Paired.return_before (h : Paired (p ++ lineFeed :: q)) : ∃ p', p = p' ++ [carriageReturn] :=
  getLast?_eq_some_iff.1 (paired_iff_split.1 h p q rfl)

lemma Paired.after (h : Paired (p ++ lineFeed :: q)) : Paired q := by
  have h' : Paired ((p ++ [lineFeed]) ++ q) := by simpa using h
  exact h'.of_append (by simp [lineFeed_ne])

lemma paired_append (hp : Paired p) (hq : Paired q) : Paired (p ++ q) := by
  rw [paired_iff_split] at hp hq ⊢
  intro a b hab
  rcases append_eq_append_iff.1 hab with ⟨c, rfl, hc⟩ | ⟨c, rfl, hc⟩
  · have hlast := hq c b hc
    simp [hlast]
  · cases c with
    | nil =>
      have hlast := hq [] b (by simpa using hc.symm)
      cases hlast
    | cons d c =>
      obtain ⟨rfl, -⟩ := cons.inj hc
      exact hp a c rfl

lemma paired_append_unbroken (hp : Unbroken p) (q : Text) : Paired (p ++ q) ↔ Paired q := by
  constructor
  · intro h
    exact h.of_append fun hlast => hp.2 (mem_of_getLast? hlast)
  · exact paired_append fun i hi => absurd (mem_of_getElem? hi) hp.1

lemma detect_append_unbroken (hp : Unbroken p) (q : Text) : detect (p ++ q) = detect q := by
  refine detect_congr ?_ (paired_append_unbroken hp q) ?_
  · simp [hp.1]
  · simp [hp.2]

lemma Paired.left (h : Paired (p ++ q)) : Paired p := by
  rw [paired_iff_split] at h ⊢
  rintro a b rfl
  exact h a (b ++ q) (by simp)

lemma detect_finish : detect (finish text) = detect text := by
  simp only [finish]
  split_ifs with h
  swap
  · rfl
  cases he : detect text with
  | cr =>
    obtain ⟨hf, hc⟩ := (detect_eq_cr_iff text).1 he
    exact (detect_eq_cr_iff _).2 ⟨by simp [hf, ending, lineFeed_ne], by simp [hc]⟩
  | crLf =>
    obtain ⟨hf, hp⟩ := (detect_eq_crLf_iff text).1 he
    exact (detect_eq_crLf_iff _).2 ⟨by simp [hf], paired_append hp (by simp [paired_iff, lineFeed_ne.symm, ending]; decide)⟩
  | lf =>
    -- the line feed that is added is bare, or an earlier one is
    have hcr : detect (text ++ [lineFeed]) ≠ .cr := by simp [detect_eq_cr_iff]
    have hcrLf : detect (text ++ [lineFeed]) ≠ .crLf := by
      rw [Ne, detect_eq_crLf_iff]
      rintro ⟨-, hp⟩
      obtain ⟨p', rfl⟩ := hp.return_before
      have hf : lineFeed ∉ p' ++ [carriageReturn] := fun hf => by
        have := (detect_eq_crLf_iff _).2 ⟨hf, hp.left⟩
        simp [he] at this
      have := (detect_eq_cr_iff _).2 ⟨hf, by simp⟩
      simp [he] at this
    show detect (text ++ [lineFeed]) = .lf
    cases h' : detect (text ++ [lineFeed]) with
    | lf => rfl
    | crLf => exact absurd h' hcrLf
    | cr => exact absurd h' hcr

lemma finish_of_suffix {text : Text} (h : (detect text).ending <:+ text) : finish text = text := by
  simp [finish, h]

lemma finish_ends : text = [] ∨ (detect text).ending <:+ finish text := by
  simp only [finish]
  split_ifs with h
  · exact .inr (suffix_append _ _)
  · by_cases hne : text = []
    · exact .inl hne
    · exact .inr (by_contra fun hend => h ⟨hne, hend⟩)

lemma finish_nil : finish [] = [] := by simp [finish]

/-! ### Line endings as line feeds -/

lemma replaceCrLf_cons {l : Text} (h : b ≠ carriageReturn ∨ l.head? ≠ some lineFeed) :
    replaceCrLf (b :: l) = b :: replaceCrLf l := by
  cases l with
  | nil => rfl
  | cons c rest =>
    have hc : ¬ (b = carriageReturn ∧ c = lineFeed) := by simpa [imp_iff_not_or] using h
    rw [replaceCrLf, if_neg hc]

lemma replaceCrLf_pair (l : Text) : replaceCrLf (carriageReturn :: lineFeed :: l) = lineFeed :: replaceCrLf l := by
  simp [replaceCrLf]

lemma replaceCrLf_append (hp : lineFeed ∉ p) (hq : q.head? ≠ some lineFeed) :
    replaceCrLf (p ++ q) = p ++ replaceCrLf q := by
  induction p with
  | nil => rfl
  | cons b p ih =>
    rw [mem_cons, not_or] at hp
    rw [cons_append, replaceCrLf_cons, ih hp.2, cons_append]
    right
    cases p with
    | nil => exact hq
    | cons c p =>
      have hc : c ≠ lineFeed := fun h => hp.2 (by simp [h])
      simpa using hc

lemma replaceCrLf_append_pair : replaceCrLf (text ++ [carriageReturn, lineFeed]) = replaceCrLf text ++ [lineFeed] := by
  fun_induction replaceCrLf text with
  | case1 => simp [replaceCrLf]
  | case2 b => simp [replaceCrLf, lineFeed_ne.symm]
  | case3 b c rest h ih =>
    obtain ⟨rfl, rfl⟩ := h
    simp [replaceCrLf_pair, ih]
  | case4 b c rest h ih =>
    rw [cons_append, cons_append, replaceCrLf, if_neg h, ← cons_append, ih, cons_append]

lemma replaceCrLf_eq_nil {text : Text} : replaceCrLf text = [] ↔ text = [] := by
  fun_induction replaceCrLf text <;> simp

lemma getLast?_replaceCrLf : (replaceCrLf text).getLast? = text.getLast? := by
  fun_induction replaceCrLf text with
  | case1 => rfl
  | case2 b => rfl
  | case3 b c rest h ih =>
    obtain ⟨rfl, rfl⟩ := h
    rw [getLast?_cons, ih, getLast?_cons, getLast?_cons]
    simp
  | case4 b c rest h ih => rw [getLast?_cons, ih, getLast?_cons (l := c :: rest)]

lemma toLf_append_ending (eol : LineEnding) : toLf (text ++ eol.ending) eol = toLf text eol ++ [lineFeed] := by
  cases eol with
  | lf => rfl
  | crLf => exact replaceCrLf_append_pair text
  | cr => simp [toLf, ending]

lemma map_feed_of_notMem (hp : carriageReturn ∉ p) :
    p.map (fun b => if b = carriageReturn then lineFeed else b) = p := by
  have hmap : p.map (fun b => if b = carriageReturn then lineFeed else b) = p.map id :=
    map_congr_left fun b hb => if_neg fun h : b = carriageReturn => hp (h ▸ hb)
  rw [hmap, map_id]

lemma toLf_append (hc : carriageReturn ∉ p) (q : Text) (eol : LineEnding) : toLf (p ++ q) eol = p ++ toLf q eol := by
  cases eol with
  | lf => rfl
  | crLf =>
    show replaceCrLf (p ++ q) = p ++ replaceCrLf q
    induction p with
    | nil => rfl
    | cons b p ih =>
      rw [mem_cons, not_or] at hc
      rw [cons_append, replaceCrLf_cons (.inl (Ne.symm hc.1)), ih hc.2, cons_append]
  | cr =>
    simp only [toLf, map_append, append_cancel_right_eq]
    exact map_feed_of_notMem hc

lemma toLf_eq_nil {text : Text} : toLf text eol = [] ↔ text = [] := by
  cases eol <;> simp [toLf, replaceCrLf_eq_nil]

/-! ### Lines -/

def linesOf : Text → List Text
  | [] => []
  | b :: rest => if b = lineFeed then [] :: linesOf rest else (b :: (linesOf rest).headD []) :: (linesOf rest).tail

lemma linesOf_append (hp : lineFeed ∉ p) (q : Text) : linesOf (p ++ lineFeed :: q) = p :: linesOf q := by
  induction p with
  | nil => simp [linesOf]
  | cons b p ih =>
    rw [mem_cons, not_or] at hp
    rw [cons_append, linesOf, if_neg (Ne.symm hp.1), ih hp.2]
    rfl

lemma linesOf_single (hp : lineFeed ∉ p) (hne : p ≠ []) : linesOf p = [p] := by
  induction p with
  | nil => exact absurd rfl hne
  | cons b p ih =>
    rw [mem_cons, not_or] at hp
    rw [linesOf, if_neg (Ne.symm hp.1)]
    cases p with
    | nil => rfl
    | cons c p => rw [ih hp.2 (cons_ne_nil c p)]; rfl

lemma linesOf_append_feed {s : Text} (hne : s ≠ []) (hlast : s.getLast? ≠ some lineFeed) :
    linesOf (s ++ [lineFeed]) = linesOf s := by
  induction s with
  | nil => exact absurd rfl hne
  | cons b s ih =>
    cases s with
    | nil =>
      have hb : b ≠ lineFeed := by simpa using hlast
      simp [linesOf, hb]
    | cons c s =>
      have htail := ih (cons_ne_nil c s) (by rwa [getLast?_cons_cons] at hlast)
      rw [cons_append, linesOf, htail, ← linesOf]

def Fits : LineEnding → Prop
  | .lf => True
  | .crLf => Paired text
  | .cr => lineFeed ∉ text

lemma fits_detect : Fits text (detect text) := by
  cases h : detect text with
  | lf => trivial
  | crLf => exact ((detect_eq_crLf_iff text).1 h).2
  | cr => exact ((detect_eq_cr_iff text).1 h).1

lemma Fits.after (h : Fits (p ++ eol.terminator :: q) eol) : Fits q eol := by
  cases eol with
  | lf => trivial
  | crLf => exact Paired.after h
  | cr => exact fun hf => h (by simp [hf])

section

variable {text : Text} (hs : text.drop start = p ++ eol.terminator :: q) (hp : eol.terminator ∉ p)
include hs hp

lemma cut_of_append : cut text eol start = if eol = .crLf then if start + p.length = 0 then none else some
      (start + p.length - 1, start + p.length + 1) else some (start + p.length, start + p.length + 1) := by
  have hfind : (p ++ eol.terminator :: q).findIdx? (· == eol.terminator) = some p.length := by
    rw [findIdx?_append, findIdx?_eq_none_iff.2]
    · simp [findIdx?_cons]
    · intro b hb
      simpa using fun h : b = eol.terminator => hp (h ▸ hb)
  rw [cut, hs, hfind]

lemma cut_line (hfits : Fits (text.drop start) eol) :
    ∃ c : Text, cut text eol start = some (start + c.length, start + p.length + 1) ∧ c <+: text.drop start ∧ linesOf
      (toLf (text.drop start) eol) = c :: linesOf (toLf q eol) := by
  rw [cut_of_append hs hp]
  rw [hs] at hfits ⊢
  cases eol with
  | lf => exact ⟨p, rfl, prefix_append _ _, linesOf_append hp q⟩
  | crLf =>
    obtain ⟨c, rfl⟩ := Paired.return_before hfits
    have hc : lineFeed ∉ c := fun h => hp (mem_append_left _ h)
    refine ⟨c, by simp, by simp [prefix_append], ?_⟩
    rw [append_assoc]
    show linesOf (replaceCrLf (c ++ carriageReturn :: lineFeed :: q)) = c :: linesOf (replaceCrLf q)
    rw [replaceCrLf_append hc (by simp [lineFeed_ne.symm]), replaceCrLf_pair, linesOf_append hc]
  | cr =>
    have hf : lineFeed ∉ p := fun h => hfits (mem_append_left _ h)
    refine ⟨p, rfl, prefix_append _ _, ?_⟩
    have hmap : toLf (p ++ carriageReturn :: q) .cr = p ++ lineFeed :: toLf q .cr := by
      simp [toLf, map_feed_of_notMem hp]
    exact (congrArg linesOf hmap).trans (linesOf_append hf _)

end

lemma toLf_unterminated {s : Text} (h : eol.terminator ∉ s) : toLf s eol = s := by
  cases eol with
  | lf => rfl
  | crLf =>
    have happ := replaceCrLf_append h (q := []) (by simp)
    simpa [toLf, replaceCrLf] using happ
  | cr => exact map_feed_of_notMem h

theorem splitLines_eq {text : Text} (start : ℕ) (hfits : Fits (text.drop start) eol) :
    ∃ lines, splitLines text start eol = some lines ∧ lines.map (fun l => (text.drop l.start).take (l.stop - l.start)) =
      linesOf (toLf (text.drop start) eol) := by
  induction hn : text.length - start using Nat.strong_induction_on generalizing start with
  | _ n ih =>
  rcases Nat.lt_or_ge start text.length with hlt | hge
  swap
  · rw [splitLines, dif_neg (by omega), drop_eq_nil_of_le hge]
    refine ⟨[], rfl, ?_⟩
    cases eol <;> rfl
  by_cases hmem : eol.terminator ∈ text.drop start
  · obtain ⟨p, q, hs, hp⟩ := eq_append_cons_of_mem hmem
    obtain ⟨c, hcut, hpre, hlines⟩ := cut_line hs hp hfits
    have hq : text.drop (start + p.length + 1) = q := by
      rw [Nat.add_assoc, ← drop_drop, hs]
      simp
    obtain ⟨lines, hrest, hcontents⟩ := ih _ (by omega) (start + p.length + 1)
      (by rw [hq]; exact (hs ▸ hfits).after) rfl
    refine ⟨⟨start, max (start + c.length) start, start + p.length + 1⟩ :: lines, ?_, ?_⟩
    · rw [splitLines, dif_pos hlt]
      split
      · simp_all
      · simp_all
    · rw [map_cons, hcontents, hq, hlines]
      congr 1
      rw [max_eq_left (by omega), Nat.add_sub_cancel_left, ← prefix_iff_eq_take.1 hpre]
  · have hcut : cut text eol start = some (text.length, text.length) := by
      rw [cut, findIdx?_eq_none_iff.2]
      intro b hb
      simpa using fun h : b = eol.terminator => hmem (h ▸ hb)
    refine ⟨[⟨start, text.length, text.length⟩], ?_, ?_⟩
    · rw [splitLines, dif_pos hlt]
      split
      · simp_all
      · next hc =>
        obtain ⟨rfl, rfl⟩ : text.length = _ ∧ text.length = _ := by simpa [hcut] using hc
        rw [splitLines, dif_neg (lt_irrefl _), max_eq_left hlt.le]
        rfl
    · have hf : lineFeed ∉ text.drop start := by
        cases eol with
        | lf => exact hmem
        | crLf => exact hmem
        | cr => exact hfits
      rw [toLf_unterminated hmem, linesOf_single hf (by simpa using hlt)]
      simp [← length_drop, take_length]

/-! ### The normal form -/

def body : Text := if bom.isPrefixOf text then text.drop bom.length else text

lemma body_append_bom (q : Text) : body (bom ++ q) = q := by
  have h : bom.isPrefixOf (bom ++ q) = true := isPrefixOf_iff_prefix.2 (prefix_append _ _)
  simp [body, h]

lemma body_of_no_mark {text : Text} (h : ¬ bom <+: text) : body text = text := by
  simp [body, h]

lemma detect_body : detect (body text) = detect text := by
  by_cases h : bom <+: text
  · obtain ⟨q, rfl⟩ := h
    rw [body_append_bom, detect_append_unbroken bom_unbroken]
  · rw [body_of_no_mark h]

def reading : List Text := linesOf (toLf (body text) (detect text))

lemma contents_new : (Source.new text).map Source.contents = some (reading text) := by
  have hskip : text.drop (if true && bom.isPrefixOf text then bom.length else 0) = body text := by
    by_cases h : bom.isPrefixOf text <;> simp [body, h]
  obtain ⟨lines, hlines, hcontents⟩ := splitLines_eq
    (if true && bom.isPrefixOf text then bom.length else 0)
    (show Fits (text.drop _) (detect text) by rw [hskip, ← detect_body]; exact fits_detect _)
  rw [hskip] at hcontents
  simp only [Source.new, Source.readWith, hlines, Option.map_some]
  exact congrArg some hcontents

def normal : Text :=
  if detect (toLf (finish text) (detect text)) = .lf then
    toLf (finish text) (detect text)
  else finish text

lemma normalise_eq : normalise text = normal (stripBom text) := rfl

lemma getLast?_toLf {text : Text} (hfits : Fits text eol) (hend : ¬ eol.ending <:+ text) :
    (toLf text eol).getLast? ≠ some lineFeed := by
  intro h
  apply hend
  cases eol with
  | lf =>
    obtain ⟨x, hx⟩ := getLast?_eq_some_iff.1 h
    exact ⟨x, hx.symm⟩
  | crLf =>
    obtain ⟨x, rfl⟩ := getLast?_eq_some_iff.1 ((getLast?_replaceCrLf text).symm.trans h)
    obtain ⟨y, rfl⟩ := Paired.return_before hfits
    exact ⟨y, by simp [ending]⟩
  | cr =>
    rw [toLf, getLast?_map, Option.map_eq_some_iff] at h
    obtain ⟨b, hb, hfeed⟩ := h
    split_ifs at hfeed with hreturn
    · obtain ⟨x, rfl⟩ := getLast?_eq_some_iff.1 hb
      exact ⟨x, by rw [hreturn]; rfl⟩
    · exact absurd (hfeed ▸ mem_of_getLast? hb) hfits

lemma linesOf_finish : linesOf (toLf (finish text) (detect text)) = linesOf (toLf text (detect text)) := by
  simp only [finish]
  split_ifs with h
  · rw [toLf_append_ending, linesOf_append_feed (mt toLf_eq_nil.1 h.1) (getLast?_toLf (fits_detect text) h.2)]
  · rfl

lemma feed_ends_finish : text = [] ∨ [lineFeed] <:+ toLf (finish text) (detect text) := by
  refine (finish_ends text).imp_right ?_
  rintro ⟨x, hx⟩
  rw [← hx, toLf_append_ending]
  exact suffix_append _ _

lemma finish_finish : finish (finish text) = finish text := by
  rcases finish_ends text with rfl | h
  · rw [finish_nil, finish_nil]
  · exact finish_of_suffix (by rwa [detect_finish])

lemma normal_spec : linesOf (toLf (normal text) (detect (normal text))) = linesOf (toLf text (detect text)) ∧
      normal (normal text) = normal text ∧ (text = [] ∨ (detect (normal text)).ending <:+ normal text) := by
  by_cases hlf : detect (toLf (finish text) (detect text)) = .lf
  · have hnormal : normal text = toLf (finish text) (detect text) := if_pos hlf
    have hfinish : finish (normal text) = normal text := by
      rcases feed_ends_finish text with rfl | h
      · rw [hnormal]
        simp [finish_nil, toLf_eq_nil.2]
      · exact finish_of_suffix (by rw [hnormal, hlf]; exact h)
    refine ⟨?_, ?_, ?_⟩
    · rw [hnormal, hlf]
      exact linesOf_finish text
    · rw [hnormal] at hfinish ⊢
      rw [normal, hlf, hfinish]
      exact if_pos hlf
    · rw [hnormal, hlf]
      exact feed_ends_finish text
  · have hnormal : normal text = finish text := if_neg hlf
    rw [hnormal, detect_finish]
    refine ⟨linesOf_finish text, ?_, finish_ends text⟩
    rw [normal, detect_finish, finish_finish]
    exact if_neg hlf

lemma breaks_of_ending (h : b ∈ eol.ending) : b = lineFeed ∨ b = carriageReturn := by
  cases eol <;> simp_all [ending, or_comm]

lemma Unbroken.notMem_ending (hp : Unbroken p) (hb : b ∈ p) (eol : LineEnding) : b ∉ eol.ending := by
  intro h
  rcases breaks_of_ending h with rfl | rfl
  · exact hp.1 hb
  · exact hp.2 hb

lemma ending_suffix_append (hp : Unbroken p) (q : Text) (eol : LineEnding) :
    eol.ending <:+ p ++ q ↔ eol.ending <:+ q := by
  refine ⟨fun h => ?_, fun h => h.trans (suffix_append _ _)⟩
  obtain ⟨x, hx⟩ := h
  rcases append_eq_append_iff.1 hx with ⟨c, rfl, hc⟩ | ⟨c, -, hc⟩
  · cases c with
    | nil => exact ⟨[], by simpa using hc⟩
    | cons b c => exact absurd (by simp [hc]) (hp.notMem_ending (b := b) (by simp) eol)
  · exact ⟨c, hc.symm⟩

lemma normal_append_unbroken (hp : Unbroken p) (hq : p = [] ∨ q ≠ []) : normal (p ++ q) = p ++ normal q := by
  have hfinish : finish (p ++ q) = p ++ finish q := by
    rcases hq with rfl | hq
    · rfl
    · simp only [finish, detect_append_unbroken hp, ending_suffix_append hp]
      by_cases h : (detect q).ending <:+ q <;> simp [h, hq]
  simp only [normal, hfinish, detect_append_unbroken hp, toLf_append hp.2]
  split_ifs <;> rfl

lemma head_toLf_return (s : Text) (eol : LineEnding) :
    ∃ b rest, toLf (carriageReturn :: s) eol = b :: rest ∧ (b = lineFeed ∨ b = carriageReturn) := by
  cases eol with
  | lf => exact ⟨_, s, rfl, .inr rfl⟩
  | crLf =>
    cases s with
    | nil => exact ⟨_, [], rfl, .inr rfl⟩
    | cons c s =>
      by_cases hc : c = lineFeed
      · exact ⟨_, _, by rw [hc]; exact replaceCrLf_pair s, .inl rfl⟩
      · exact ⟨_, _, replaceCrLf_cons (.inr (by simpa using hc)), .inr rfl⟩
  | cr => exact ⟨lineFeed, _, by rw [toLf, map_cons, if_pos rfl], .inl rfl⟩

lemma prefix_toLf_iff (hp : Unbroken p) (s : Text) (eol : LineEnding) : p <+: toLf s eol ↔ p <+: s := by
  induction p generalizing s with
  | nil => simp
  | cons b p ih =>
    obtain ⟨⟨hbf, hf⟩, hbc, hc⟩ : (lineFeed ≠ b ∧ lineFeed ∉ p) ∧ carriageReturn ≠ b ∧ carriageReturn ∉ p := by
      simpa [Unbroken] using hp
    cases s with
    | nil => rw [toLf_eq_nil.2 rfl]
    | cons a s =>
      by_cases ha : a = carriageReturn
      · subst ha
        obtain ⟨x, rest, hx, hbreak⟩ := head_toLf_return s eol
        have hbx : b ≠ x := by rcases hbreak with rfl | rfl <;> exact Ne.symm ‹_›
        simp [hx, cons_prefix_cons, hbx, Ne.symm hbc]
      · have hcons := toLf_append (p := [a]) (by simpa using Ne.symm ha) s eol
        simp only [singleton_append] at hcons
        rw [hcons, cons_prefix_cons, cons_prefix_cons, ih ⟨hf, hc⟩]

lemma prefix_finish_iff (hp : Unbroken p) (s : Text) : p <+: finish s ↔ p <+: s := by
  simp only [finish]
  split_ifs
  swap
  · rfl
  refine ⟨fun h => ?_, fun h => h.trans (prefix_append _ _)⟩
  rcases prefix_or_prefix_of_prefix h (prefix_append s _) with hps | ⟨c, rfl⟩
  · exact hps
  · -- what the text lacks of `p` would be the start of the line ending
    cases c with
    | nil => simp
    | cons b c =>
      have hbc := (prefix_append_right_inj s).1 h
      exact absurd (hbc.subset (by simp)) (hp.notMem_ending (b := b) (by simp) _)

lemma prefix_normal_iff (hp : Unbroken p) (s : Text) : p <+: normal s ↔ p <+: s := by
  unfold normal
  split_ifs
  · rw [prefix_toLf_iff hp, prefix_finish_iff hp]
  · exact prefix_finish_iff hp s

lemma stripBom_cases :
    (stripBom text = bom ++ body text ∧ bom <+: body text) ∨ (stripBom text = body text ∧ ¬ bom <+: body text) := by
  by_cases h : bom <+: text
  swap
  · right
    rw [body_of_no_mark h]
    exact ⟨by simp [stripBom, h], h⟩
  obtain ⟨q, rfl⟩ := h
  rw [body_append_bom, stripBom]
  by_cases h2 : bom <+: q <;> simp [h2]

lemma stripBom_of_second (h : bom <+: q) : stripBom (bom ++ q) = bom ++ q := by
  rw [stripBom]
  simp [h]

lemma stripBom_of_none {text : Text} (h : ¬ bom <+: text) : stripBom text = text := by
  simp [stripBom, h]

/-- Normalising changes no reading. -/
theorem normalise_keeps_reading (text : Text) : normalise (normalise text) = normalise text ∧
      (∃ contents, (Source.new text).map Source.contents = some contents ∧
        (Source.new (normalise text)).map Source.contents = some contents) ∧
      (normalise text ≠ [] → (detect (normalise text)).ending <:+ normalise text) := by
  obtain ⟨hreading, hagain, hends⟩ := normal_spec (body text)
  suffices h : normalise (normalise text) = normalise text ∧ reading (normalise text) = reading text ∧
      (normalise text ≠ [] → (detect (normalise text)).ending <:+ normalise text) by
    refine ⟨h.1, ⟨reading text, contents_new text, ?_⟩, h.2.2⟩
    rw [contents_new, h.2.1]
  rcases stripBom_cases text with ⟨hstrip, hbom⟩ | ⟨hstrip, hbom⟩
  · have hne : ∀ {q : Text}, bom <+: q → q ≠ [] := by
      rintro _ h rfl
      simp [bom] at h
    have hbom' : bom <+: normal (body text) := (prefix_normal_iff bom_unbroken _).2 hbom
    have hnormal : normalise text = bom ++ normal (body text) := by
      rw [normalise_eq, hstrip, normal_append_unbroken bom_unbroken (.inr (hne hbom))]
    refine ⟨?_, ?_, fun _ => ?_⟩
    · rw [hnormal, normalise_eq, stripBom_of_second hbom', normal_append_unbroken bom_unbroken (.inr (hne hbom')),
        hagain]
    · rw [reading, hnormal, body_append_bom, detect_append_unbroken bom_unbroken, hreading, detect_body]
      rfl
    · rw [hnormal, detect_append_unbroken bom_unbroken, ending_suffix_append bom_unbroken]
      exact hends.resolve_left (hne hbom)
  · have hbom' : ¬ bom <+: normal (body text) := mt (prefix_normal_iff bom_unbroken _).1 hbom
    have hnormal : normalise text = normal (body text) := by rw [normalise_eq, hstrip]
    refine ⟨?_, ?_, fun hne => ?_⟩
    · rw [hnormal, normalise_eq, stripBom_of_none hbom', hagain]
    · rw [reading, hnormal, body_of_no_mark hbom', hreading, detect_body]
      rfl
    · rw [hnormal] at hne ⊢
      refine hends.resolve_left fun hnil => hne ?_
      rw [hnil, normal, finish_nil]
      simp [toLf_eq_nil.2]

end Mae.Org
