import InstallAssistant.Markup
import Mathlib.Data.List.TakeWhile

/-!
# InstallAssistant.Proofs.Markup

Laws of the tag scanner:

* scanning loses nothing (`spell_scan`);
* a text is scanned part by part, wherever no tag can reach across the border
  (`scan_append`);
* the scanner finds exactly the tags that are written: those of the names whose
  tag is spelled somewhere in the text (`tag_mem_scan_iff`);
* where a tag is spelled, it is a piece (`eq_tag_cons_of_scan_eq`), and what stands
  around it is scanned by itself (`scan_spell_of_scan_eq`);
* pieces are cut at the first tag of a name (`cutAt?_eq_some_iff`), and stripping
  shortens a text exactly when it has a tag (`length_strip_lt`).
-/

namespace InstallAssistant.Markup

/-! ## spelling -/

@[simp] theorem spell_nil : spell [] = [] := rfl

@[simp] theorem spell_cons (p : Piece) (ps : List Piece) :
    spell (p :: ps) = p.spell ++ spell ps := rfl

@[simp] theorem spell_append (ps qs : List Piece) : spell (ps ++ qs) = spell ps ++ spell qs :=
  List.flatMap_append

@[simp] theorem spell_map_char (s : List Char) : spell (s.map .char) = s := by
  induction s with
  | nil => rfl
  | cons c cs ih => simp [Piece.spell, ih]

/-- The text of a tag and what follows it, put together from the run of tag characters that the
scanner found before a closing bracket. -/
theorem spell_takeWhile_append {cs rest : List Char} (h : cs.dropWhile isTagChar = '>' :: rest)
    (s : List Char) :
    '<' :: (cs ++ s) = (Piece.tag (cs.takeWhile isTagChar)).spell ++ (rest ++ s) := by
  have hcs : cs.takeWhile isTagChar ++ '>' :: rest = cs := by
    rw [← h, List.takeWhile_append_dropWhile]
  calc
    '<' :: (cs ++ s) = '<' :: (cs.takeWhile isTagChar ++ '>' :: rest ++ s) := by rw [hcs]
    _ = (Piece.tag (cs.takeWhile isTagChar)).spell ++ (rest ++ s) := by simp [Piece.spell]

/-- **Nothing is lost**: the pieces of a text spell it. -/
@[simp] theorem spell_scan (s : List Char) : spell (scan s) = s := by
  fun_induction scan s with
  | case1 => rfl
  | case2 cs rest h hname ih =>
      have hcs := spell_takeWhile_append h []
      rw [List.append_nil, List.append_nil] at hcs
      rw [spell_cons, ih, hcs]
  | case3 cs rest h hname ih => rw [spell_cons, ih]; rfl
  | case4 cs h ih => rw [spell_cons, ih]; rfl
  | case5 c cs h ih => rw [spell_cons, ih]; rfl

/-! ## pieces up to the first that fails a test -/

theorem takeWhile_append_of_neg {f : Piece → Bool} {p : Piece} {ps : List Piece} (hp : p ∈ ps)
    (hf : f p = false) (qs : List Piece) : (ps ++ qs).takeWhile f = ps.takeWhile f := by
  rw [List.takeWhile_append, if_neg]
  intro hlen
  have hall := List.takeWhile_eq_self_iff.mp ((List.takeWhile_prefix f).eq_of_length hlen) p hp
  rw [hf] at hall
  contradiction

theorem spell_takeWhile_isPrefix (f : Piece → Bool) (ps : List Piece) :
    spell (ps.takeWhile f) <+: spell ps := by
  obtain ⟨rest, hrest⟩ := List.takeWhile_prefix f (l := ps)
  exact ⟨spell rest, by rw [← spell_append, hrest]⟩

theorem length_spell_takeWhile_lt {f : Piece → Bool} {p : Piece} {ps : List Piece} (hp : p ∈ ps)
    (hf : f p = false) : (spell (ps.takeWhile f)).length < (spell ps).length := by
  induction ps with
  | nil => cases hp
  | cons q qs ih =>
      by_cases hq : f q = true
      · have hin : p ∈ qs := by
          rcases List.mem_cons.mp hp with rfl | hin
          · rw [hf] at hq
            contradiction
          · exact hin
        have hlt := ih hin
        rw [List.takeWhile_cons_of_pos hq]
        simp only [spell_cons, List.length_append]
        omega
      · rw [List.takeWhile_cons_of_neg hq, spell_nil, spell_cons]
        cases q <;> simp [Piece.spell]

/-! ## single steps of the scanner -/

@[simp] theorem scan_nil : scan [] = [] := by rw [scan]

theorem scan_char {c : Char} (h : c ≠ '<') (s : List Char) : scan (c :: s) = .char c :: scan s := by
  rw [scan, if_neg h]

theorem dropWhile_tagChars {name : List Char} (h : ∀ c ∈ name, isTagChar c = true)
    (s : List Char) : (name ++ '>' :: s).dropWhile isTagChar = '>' :: s := by
  rw [List.dropWhile_append_of_pos h]
  rfl

theorem takeWhile_tagChars {name : List Char} (h : ∀ c ∈ name, isTagChar c = true)
    (s : List Char) : (name ++ '>' :: s).takeWhile isTagChar = name := by
  rw [List.takeWhile_append_of_pos h]
  exact List.append_nil name

/-- A tag that is spelled at the start of a text is its first piece. -/
theorem scan_tag {name : List Char} (hname : isTagName name = true)
    (h : ∀ c ∈ name, isTagChar c = true) (s : List Char) :
    scan ((Piece.tag name).spell ++ s) = .tag name :: scan s := by
  have happ : (Piece.tag name).spell ++ s = '<' :: (name ++ '>' :: s) := by
    simp [Piece.spell]
  rw [happ, scan, if_pos rfl]
  split
  · next rest hrest =>
      rw [dropWhile_tagChars h] at hrest
      injection hrest with _ hrest
      rw [takeWhile_tagChars h, if_pos hname, hrest]
  · next hno => exact absurd (dropWhile_tagChars h s) (hno s)

/-- A tag as it is written. -/
def tagText (name : String) : List Char := (Piece.tag name.toList).spell

theorem scan_tagText_append {name : String} (hname : isTagName name.toList = true)
    (h : name.toList.all isTagChar = true) (s : List Char) :
    scan (tagText name ++ s) = .tag name.toList :: scan s :=
  scan_tag hname (List.all_eq_true.mp h) s

/-- A bracket that opens no tag stands for itself. -/
theorem scan_bracket {s : List Char}
    (h : ∀ rest, s.dropWhile isTagChar = '>' :: rest → isTagName (s.takeWhile isTagChar) = false) :
    scan ('<' :: s) = .char '<' :: scan s := by
  rw [scan, if_pos rfl]
  split
  · next rest hrest => rw [if_neg (by rw [h rest hrest]; decide)]
  · rfl

/-- Characters other than opening brackets stand for themselves. -/
theorem scan_chars_append {x : List Char} (h : '<' ∉ x) (s : List Char) :
    scan (x ++ s) = x.map .char ++ scan s := by
  induction x with
  | nil => rfl
  | cons c cs ih =>
      simp only [List.mem_cons, not_or] at h
      rw [List.cons_append, scan_char (Ne.symm h.1), ih h.2]
      rfl

theorem scan_chars {x : List Char} (h : '<' ∉ x) : scan x = x.map .char := by
  have := scan_chars_append h []
  rwa [List.append_nil, scan_nil, List.append_nil] at this

/-! ## texts side by side -/

/-- No tag that begins in the text can go on behind it. -/
def Closed (s : List Char) : Prop := ∀ c ∈ s.getLast?, c ≠ '<' ∧ isTagChar c = false

/-- The text does not go on with a tag that has begun before it. -/
def Fresh (s : List Char) : Prop := ∀ c ∈ s.head?, c ≠ '>' ∧ isTagChar c = false

theorem Closed.of_suffix {s t : List Char} (h : Closed s) (ht : t <:+ s) : Closed t := by
  obtain ⟨front, rfl⟩ := ht
  intro c hc
  exact h c (by rw [List.getLast?_append, Option.mem_def.mp hc]; rfl)

/-- A run of tag characters up to the end of a text that is closed would leave it open. -/
theorem Closed.dropWhile_ne_nil {cs : List Char} (h : Closed ('<' :: cs)) :
    cs.dropWhile isTagChar ≠ [] := by
  intro hnil
  have hall : ∀ c ∈ cs, isTagChar c = true := List.dropWhile_eq_nil_iff.mp hnil
  cases hl : cs.getLast? with
  | none =>
      rw [List.getLast?_eq_none_iff] at hl
      subst hl
      exact (h '<' rfl).1 rfl
  | some c =>
      have hlast : ('<' :: cs).getLast? = some c := by
        rw [List.getLast?_cons, hl]
        rfl
      have hc := (h c hlast).2
      rw [hall c (List.mem_of_getLast? hl)] at hc
      contradiction

/-- A text that is fresh begins with no run of tag characters. -/
theorem Fresh.dropWhile_eq {s : List Char} (h : Fresh s) : s.dropWhile isTagChar = s := by
  cases s with
  | nil => rfl
  | cons c cs => rw [List.dropWhile_cons_of_neg (by rw [(h c rfl).2]; decide)]

/-- A run of tag characters that ends within a text ends there whatever follows. -/
theorem run_append {cs ds : List Char} {d : Char} (h : cs.dropWhile isTagChar = d :: ds)
    (s : List Char) :
    (cs ++ s).takeWhile isTagChar = cs.takeWhile isTagChar ∧
      (cs ++ s).dropWhile isTagChar = d :: (ds ++ s) := by
  have hdrop : (cs ++ s).dropWhile isTagChar = d :: (ds ++ s) := by
    rw [List.dropWhile_append, h]
    rfl
  have hwhole : (cs ++ s).takeWhile isTagChar ++ d :: (ds ++ s) = cs ++ s := by
    rw [← hdrop, List.takeWhile_append_dropWhile]
  have hfirst : cs.takeWhile isTagChar ++ d :: ds = cs := by
    rw [← h, List.takeWhile_append_dropWhile]
  have htake : (cs ++ s).takeWhile isTagChar ++ d :: (ds ++ s) =
      cs.takeWhile isTagChar ++ d :: (ds ++ s) :=
    calc
      (cs ++ s).takeWhile isTagChar ++ d :: (ds ++ s) = cs ++ s := hwhole
      _ = cs.takeWhile isTagChar ++ d :: ds ++ s := by rw [hfirst]
      _ = cs.takeWhile isTagChar ++ d :: (ds ++ s) := List.append_assoc _ _ _
  exact ⟨List.append_cancel_right htake, hdrop⟩

/-- A bracket that opens no tag of a text opens none of a longer one, if no tag can reach across the
border. -/
theorem dropWhile_append_ne {cs s : List Char} (h : Closed ('<' :: cs) ∨ Fresh s)
    (hcs : ∀ rest, cs.dropWhile isTagChar ≠ '>' :: rest) (rest : List Char) :
    (cs ++ s).dropWhile isTagChar ≠ '>' :: rest := by
  cases hd : cs.dropWhile isTagChar with
  | cons d ds =>
      rw [(run_append hd s).2]
      rintro ⟨⟩
      exact hcs ds hd
  | nil =>
      -- the first text ends within a run of tag characters, so the second one must be fresh
      have hs : Fresh s := h.resolve_left fun hx => hx.dropWhile_ne_nil hd
      rw [List.dropWhile_append, hd, hs.dropWhile_eq]
      rintro rfl
      exact (hs '>' rfl).1 rfl

/-- **Scanning part by part**: where no tag reaches across the border of two texts, the pieces of
both are the pieces of the whole. -/
theorem scan_append {x s : List Char} (h : Closed x ∨ Fresh s) :
    scan (x ++ s) = scan x ++ scan s := by
  fun_induction scan x with
  | case1 => rfl
  | case2 cs rest hcs hname ih =>
      -- the tag lies within the first text, and what follows the tag is shorter
      have hrest : Closed rest ∨ Fresh s := by
        refine h.imp_left fun hx => hx.of_suffix ?_
        exact ((List.suffix_cons '>' rest).trans (hcs ▸ List.dropWhile_suffix _)).trans
          (List.suffix_cons '<' cs)
      rw [List.cons_append, spell_takeWhile_append hcs,
        scan_tag hname (fun c hc => List.mem_takeWhile_imp hc), ih hrest]
      rfl
  | case3 cs rest hcs hname ih =>
      have hbracket : scan ('<' :: (cs ++ s)) = .char '<' :: scan (cs ++ s) := by
        refine scan_bracket fun _ _ => ?_
        rw [(run_append hcs s).1]
        exact Bool.eq_false_iff.mpr hname
      rw [List.cons_append, hbracket, ih (h.imp_left (·.of_suffix (List.suffix_cons _ _)))]
      rfl
  | case4 cs hcs ih =>
      have hbracket : scan ('<' :: (cs ++ s)) = .char '<' :: scan (cs ++ s) :=
        scan_bracket fun rest hrest => absurd hrest (dropWhile_append_ne h hcs rest)
      rw [List.cons_append, hbracket, ih (h.imp_left (·.of_suffix (List.suffix_cons _ _)))]
      rfl
  | case5 c cs hc ih =>
      rw [List.cons_append, scan_char hc, ih (h.imp_left (·.of_suffix (List.suffix_cons _ _)))]
      rfl

theorem fresh_cons {c : Char} (h : c ≠ '>' ∧ isTagChar c = false) (s : List Char) :
    Fresh (c :: s) := by
  intro d hd
  cases hd
  exact h

theorem fresh_bracket (s : List Char) : Fresh ('<' :: s) := fresh_cons (by decide) s

/-! ## which tags there are -/

/-- The tags that are found have names. -/
theorem isTagName_of_tag_mem_scan {name s : List Char} (h : .tag name ∈ scan s) :
    isTagName name = true ∧ ∀ c ∈ name, isTagChar c = true := by
  fun_induction scan s with
  | case1 => cases h
  | case2 cs rest hcs hname ih =>
      rcases List.mem_cons.mp h with heq | hin
      · cases heq
        exact ⟨hname, fun c hc => List.mem_takeWhile_imp hc⟩
      · exact ih hin
  | case3 cs rest hcs hname ih => exact ih (by simpa using h)
  | case4 cs hcs ih => exact ih (by simpa using h)
  | case5 c cs hc ih => exact ih (by simpa using h)

/-- A piece is written in the text that it is a piece of. -/
theorem spell_isInfix_of_mem {p : Piece} {ps : List Piece} (h : p ∈ ps) :
    p.spell <:+: spell ps := by
  obtain ⟨front, rest, rfl⟩ := List.append_of_mem h
  exact ⟨spell front, spell rest, by simp⟩

/-- **The scanner finds exactly the tags that are written.** -/
theorem tag_mem_scan_iff {name s : List Char} :
    .tag name ∈ scan s ↔
      isTagName name = true ∧ (∀ c ∈ name, isTagChar c = true) ∧ (Piece.tag name).spell <:+: s := by
  constructor
  · intro h
    obtain ⟨hname, hchars⟩ := isTagName_of_tag_mem_scan h
    have hin := spell_isInfix_of_mem h
    rw [spell_scan] at hin
    exact ⟨hname, hchars, hin⟩
  · rintro ⟨hname, hchars, front, rest, rfl⟩
    have hfresh : Fresh ((Piece.tag name).spell ++ rest) := fresh_bracket _
    rw [List.append_assoc, scan_append (.inr hfresh), scan_tag hname hchars]
    simp

theorem tag_mem_scan_iff_tagText (name : String) (hname : isTagName name.toList = true)
    (h : name.toList.all isTagChar = true) {s : List Char} :
    .tag name.toList ∈ scan s ↔ tagText name <:+: s := by
  rw [tag_mem_scan_iff, tagText]
  exact ⟨fun hin => hin.2.2, fun hin => ⟨hname, List.all_eq_true.mp h, hin⟩⟩

/-- A part of a text has no tags that the whole has not. -/
theorem tag_mem_scan_of_isInfix {name s t : List Char} (h : .tag name ∈ scan s) (hst : s <:+: t) :
    .tag name ∈ scan t := by
  obtain ⟨h₁, h₂, h₃⟩ := tag_mem_scan_iff.mp h
  exact tag_mem_scan_iff.mpr ⟨h₁, h₂, h₃.trans hst⟩

/-- A text without a closing bracket has no tags. -/
theorem tag_notMem_scan {s : List Char} (h : '>' ∉ s) (name : List Char) : .tag name ∉ scan s := by
  intro hin
  obtain ⟨_, _, h₃⟩ := tag_mem_scan_iff.mp hin
  exact h (h₃.subset (by simp [Piece.spell]))

/-- A tag that is cut behind a text adds no tag to it. -/
theorem tag_mem_scan_of_cut {name : String} (hname : '>' ∉ name.toList) {w p : List Char}
    (hp : p <+: w ++ tagText name) (hne : p ≠ w ++ tagText name) {n : List Char}
    (hin : .tag n ∈ scan p) : .tag n ∈ scan w := by
  have htext : w ++ tagText name = w ++ '<' :: name.toList ++ ['>'] := by
    simp [tagText, Piece.spell]
  have hno : '>' ∉ '<' :: name.toList := by simp [hname]
  rw [htext] at hp hne
  rcases List.prefix_concat_iff.mp hp with heq | hcut
  · exact absurd heq hne
  · have hwhole := tag_mem_scan_of_isInfix hin hcut.isInfix
    rw [scan_append (.inr (fresh_bracket _)), List.mem_append] at hwhole
    exact hwhole.resolve_right (tag_notMem_scan hno n)

theorem mem_map_name_tagsFrom {name : List Char} {ps : List Piece} (start : Nat) :
    name ∈ (tagsFrom start ps).map Tag.name ↔ .tag name ∈ ps := by
  induction ps generalizing start with
  | nil => simp [tagsFrom]
  | cons p ps ih =>
      cases p with
      | char c => simp [tagsFrom, ih]
      | tag n => simp [tagsFrom, ih]

/-- The names of the tags that are reported are those that the scanner found. -/
theorem mem_map_name_tags {name s : List Char} :
    name ∈ (tags s).map Tag.name ↔ .tag name ∈ scan s := mem_map_name_tagsFrom 0

/-! ## pieces of the parts of a text -/

theorem eq_nil_of_spell_eq_nil {ps : List Piece} (h : spell ps = []) : ps = [] := by
  cases ps with
  | nil => rfl
  | cons p ps => cases p <;> simp [Piece.spell] at h

/-- Pieces divide in one way only at a place of the text that they spell. -/
theorem append_inj_of_spell {ps ps' qs qs' : List Piece} (h : ps ++ qs = ps' ++ qs')
    (hspell : spell ps = spell ps') : ps = ps' ∧ qs = qs' := by
  rcases List.append_eq_append_iff.mp h with ⟨between, rfl, rfl⟩ | ⟨between, rfl, rfl⟩
  · rw [spell_append, List.self_eq_append_right] at hspell
    simp [eq_nil_of_spell_eq_nil hspell]
  · rw [spell_append, List.append_right_eq_self] at hspell
    simp [eq_nil_of_spell_eq_nil hspell]

/-- **Where a tag is spelled, it is the next piece**, behind pieces that spell what stands before
it. -/
theorem eq_tag_cons_of_scan_eq {name y : List Char} {front rest : List Piece}
    (hname : isTagName name = true) (hchars : ∀ c ∈ name, isTagChar c = true)
    (h : scan (spell front ++ ((Piece.tag name).spell ++ y)) = front ++ rest) :
    scan (spell front) = front ∧ rest = .tag name :: scan y := by
  have hfresh : Fresh ((Piece.tag name).spell ++ y) := fresh_bracket _
  rw [scan_append (.inr hfresh), scan_tag hname hchars] at h
  obtain ⟨hfront, hrest⟩ := append_inj_of_spell h (spell_scan _)
  exact ⟨hfront, hrest.symm⟩

/-- What stands around a tag is scanned by itself. -/
theorem scan_spell_of_scan_eq {s name : List Char} {front rest : List Piece}
    (h : scan s = front ++ .tag name :: rest) :
    scan (spell front) = front ∧ scan (spell rest) = rest := by
  obtain ⟨hname, hchars, _⟩ := tag_mem_scan_iff.mp
    (h ▸ List.mem_append_right front List.mem_cons_self : .tag name ∈ scan s)
  have hs : s = spell front ++ ((Piece.tag name).spell ++ spell rest) := by
    rw [← spell_scan s, h, spell_append, spell_cons]
  obtain ⟨hfront, hrest⟩ := eq_tag_cons_of_scan_eq hname hchars (hs ▸ h)
  exact ⟨hfront, (List.cons.inj hrest).2.symm⟩

/-! ## cutting -/

@[simp] theorem cutAt?_cons_self (name : String) (ps : List Piece) :
    cutAt? name (.tag name.toList :: ps) = some ([], ps) := by
  rw [cutAt?, if_pos rfl]

theorem cutAt?_eq_none_iff {name : String} {ps : List Piece} :
    cutAt? name ps = none ↔ .tag name.toList ∉ ps := by
  induction ps with
  | nil => simp [cutAt?]
  | cons p ps ih =>
      by_cases hp : p = .tag name.toList
      · simp [cutAt?, hp]
      · simp [cutAt?, hp, ih, Ne.symm hp]

theorem exists_cutAt? {name : String} {ps : List Piece} (h : .tag name.toList ∈ ps) :
    ∃ front rest, cutAt? name ps = some (front, rest) := by
  cases hcut : cutAt? name ps with
  | none => exact absurd h (cutAt?_eq_none_iff.mp hcut)
  | some p => exact ⟨p.1, p.2, rfl⟩

/-- **Pieces are cut at the first tag of the name.** -/
theorem cutAt?_eq_some_iff {name : String} {ps front rest : List Piece} :
    cutAt? name ps = some (front, rest) ↔
      ps = front ++ .tag name.toList :: rest ∧ .tag name.toList ∉ front := by
  induction ps generalizing front with
  | nil => simp [cutAt?]
  | cons p ps ih =>
      by_cases hp : p = .tag name.toList
      · subst hp
        cases front with
        | nil => simp [cutAt?, eq_comm]
        | cons q front =>
            simp only [cutAt?, if_true, Option.some.injEq, Prod.mk.injEq, List.cons_append,
              List.cons.injEq, List.mem_cons, not_or]
            constructor
            · rintro ⟨h, _⟩
              contradiction
            · rintro ⟨⟨h, _⟩, hne, _⟩
              exact absurd h hne
      · cases front with
        | nil =>
            simp only [cutAt?, if_neg hp, Option.map_eq_some_iff, Prod.mk.injEq, List.nil_append,
              List.cons.injEq]
            constructor
            · rintro ⟨_, _, h, _⟩
              contradiction
            · rintro ⟨⟨h, _⟩, _⟩
              exact absurd h hp
        | cons q front =>
            simp only [cutAt?, if_neg hp, Option.map_eq_some_iff, Prod.mk.injEq, Prod.exists,
              List.cons_append, List.cons.injEq, List.mem_cons, not_or]
            constructor
            · rintro ⟨f, r, hcut, ⟨rfl, rfl⟩, rfl⟩
              obtain ⟨h₁, h₂⟩ := ih.mp hcut
              exact ⟨⟨rfl, h₁⟩, Ne.symm hp, h₂⟩
            · rintro ⟨⟨rfl, h₁⟩, _, h₂⟩
              exact ⟨front, rest, ih.mpr ⟨h₁, h₂⟩, ⟨rfl, rfl⟩, rfl⟩

/-- What stands before and after the first tag of a name, in the text. -/
theorem spell_eq_of_cutAt? {name : String} {ps front rest : List Piece}
    (h : cutAt? name ps = some (front, rest)) :
    spell ps = spell front ++ (Piece.tag name.toList).spell ++ spell rest := by
  rw [(cutAt?_eq_some_iff.mp h).1, spell_append, spell_cons, List.append_assoc]

theorem eq_of_cutAt?_scan {name : String} {s : List Char} {front rest : List Piece}
    (h : cutAt? name (scan s) = some (front, rest)) :
    s = spell front ++ (Piece.tag name.toList).spell ++ spell rest := by
  rw [← spell_eq_of_cutAt? h, spell_scan]

/-! ## stripping -/

theorem length_strip_le (ps : List Piece) : (strip ps).length ≤ (spell ps).length := by
  induction ps with
  | nil => exact Nat.le_refl 0
  | cons p ps ih =>
      cases p with
      | char c =>
          simp only [strip, spell_cons, Piece.spell, List.length_cons, List.length_append,
            List.length_nil]
          omega
      | tag n =>
          simp only [strip, spell_cons, List.length_append]
          omega

theorem length_strip_lt {ps : List Piece} {name : List Char} (h : .tag name ∈ ps) :
    (strip ps).length < (spell ps).length := by
  induction ps with
  | nil => cases h
  | cons p ps ih =>
      have hle := length_strip_le ps
      cases p with
      | char c =>
          have hin : .tag name ∈ ps := by simpa using h
          have hlt := ih hin
          simp only [strip, spell_cons, Piece.spell, List.length_append, List.length_cons,
            List.length_nil]
          omega
      | tag n =>
          simp only [strip, spell_cons, Piece.spell, List.length_append, List.length_cons]
          omega

/-- The character that a piece is, if it is no tag. -/
def Piece.char? : Piece → Option Char
  | .char c => some c
  | .tag _ => none

theorem strip_eq_filterMap (ps : List Piece) : strip ps = ps.filterMap Piece.char? := by
  induction ps with
  | nil => rfl
  | cons p ps ih =>
      cases p with
      | char c => rw [strip, ih]; rfl
      | tag n => rw [strip, ih]; rfl

theorem strip_append (ps qs : List Piece) : strip (ps ++ qs) = strip ps ++ strip qs := by
  simp only [strip_eq_filterMap, List.filterMap_append]

/-- The parts of a stripped text come from parts of its pieces. -/
theorem strip_eq_append_iff {ps : List Piece} {x y : List Char} :
    strip ps = x ++ y ↔ ∃ front rest, ps = front ++ rest ∧ strip front = x ∧ strip rest = y := by
  simp only [strip_eq_filterMap, List.filterMap_eq_append_iff]

/-- A text without tags is not changed. -/
theorem strip_of_no_tag {ps : List Piece} (h : ∀ name, .tag name ∉ ps) : strip ps = spell ps := by
  induction ps with
  | nil => rfl
  | cons p ps ih =>
      have hps : ∀ name, .tag name ∉ ps := fun name hin => h name (List.mem_cons_of_mem p hin)
      cases p with
      | char c => rw [strip, ih hps]; rfl
      | tag n => exact absurd List.mem_cons_self (h n)

end InstallAssistant.Markup
