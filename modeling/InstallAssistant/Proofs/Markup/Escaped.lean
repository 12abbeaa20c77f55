import InstallAssistant.Proofs.Json.Mark
import InstallAssistant.Proofs.Markup

/-!
# InstallAssistant.Proofs.Markup.Escaped

Tags in escaped text.  A text that stands between quotation marks has the tags
that it has without them (`scan_escape`), because escaping touches no character
that a tag could have, and neither makes nor removes an angle bracket.
-/

namespace InstallAssistant.Markup

open Json (escape_cons escape_append)
open Json.Token (escapeChar_forms notMem_escapeChar)

/-! ## escaped characters -/

theorem toNat_of_isTagChar {c : Char} (h : isTagChar c = true) : 0x20 ≤ c.toNat := by
  by_contra hlow
  have hall : ∀ n < 0x20, isTagChar (Char.ofNat n) = false := by decide
  have hc := hall c.toNat (Nat.lt_of_not_le hlow)
  rw [Char.ofNat_toNat, h] at hc
  contradiction

/-- Escaping touches no character that a tag could have. -/
theorem escapeChar_of_isTagChar {c : Char} (h : isTagChar c = true) : Json.escapeChar c = [c] := by
  have hlow := toNat_of_isTagChar h
  have hne : ∀ d, isTagChar d = false → c ≠ d := by
    rintro d hd rfl
    rw [h] at hd
    contradiction
  rw [Json.escapeChar, if_neg (hne _ rfl), if_neg (hne _ rfl), if_neg (hne _ rfl),
    if_neg (hne _ rfl), if_neg (hne _ rfl), if_neg (hne _ rfl), if_neg (hne _ rfl),
    if_neg (Nat.not_lt.mpr hlow)]

/-- A character that no tag could have is escaped as text that begins with such a character, and
with a closing bracket only if it is one. -/
theorem exists_escapeChar_eq_cons {c : Char} (h : isTagChar c = false) :
    ∃ d ds, Json.escapeChar c = d :: ds ∧ isTagChar d = false ∧ (d = '>' ↔ c = '>') := by
  by_cases hc : c = '>'
  · exact ⟨'>', [], by rw [hc]; rfl, rfl, by simp [hc]⟩
  · rcases escapeChar_forms c with ⟨he, _⟩ | ⟨e, he, _⟩ | ⟨he, _⟩
    · exact ⟨c, [], he, h, Iff.rfl⟩
    · exact ⟨'\\', _, he, rfl, by simp [hc]⟩
    · exact ⟨'\\', _, he, rfl, by simp [hc]⟩

theorem bracket_notMem_escapeChar {c : Char} (h : c ≠ '<') : '<' ∉ Json.escapeChar c :=
  notMem_escapeChar rfl (by decide) (.inl (Ne.symm h))

/-! ## runs of tag characters -/

theorem dropWhile_escape (s : List Char) :
    (Json.escape s).dropWhile isTagChar = Json.escape (s.dropWhile isTagChar) := by
  induction s with
  | nil => rfl
  | cons c cs ih =>
      by_cases hc : isTagChar c = true
      · rw [escape_cons, escapeChar_of_isTagChar hc, List.singleton_append,
          List.dropWhile_cons_of_pos hc, List.dropWhile_cons_of_pos hc, ih]
      · obtain ⟨d, ds, he, hd, _⟩ := exists_escapeChar_eq_cons (Bool.eq_false_iff.mpr hc)
        rw [List.dropWhile_cons_of_neg hc, escape_cons, he, List.cons_append,
          List.dropWhile_cons_of_neg (by rw [hd]; decide)]

/-- The run of tag characters ends at the same place, and not at a closing bracket. -/
theorem dropWhile_escape_ne {cs : List Char} (hcs : ∀ rest, cs.dropWhile isTagChar ≠ '>' :: rest)
    (rest : List Char) : (Json.escape cs).dropWhile isTagChar ≠ '>' :: rest := by
  rw [dropWhile_escape]
  cases hd : cs.dropWhile isTagChar with
  | nil => exact (List.cons_ne_nil '>' rest).symm
  | cons d ds =>
      have hnot : isTagChar d = false := by
        have hne : cs.dropWhile isTagChar ≠ [] := hd ▸ List.cons_ne_nil d ds
        simpa [hd] using List.head_dropWhile_not isTagChar hne
      obtain ⟨e, es, he, _, hiff⟩ := exists_escapeChar_eq_cons hnot
      rw [escape_cons, he, List.cons_append]
      intro hrest
      injection hrest with hgt _
      exact hcs ds (hiff.mp hgt ▸ hd)

theorem takeWhile_escape (s : List Char) :
    (Json.escape s).takeWhile isTagChar = s.takeWhile isTagChar := by
  induction s with
  | nil => rfl
  | cons c cs ih =>
      by_cases hc : isTagChar c = true
      · rw [escape_cons, escapeChar_of_isTagChar hc, List.singleton_append,
          List.takeWhile_cons_of_pos hc, List.takeWhile_cons_of_pos hc, ih]
      · obtain ⟨d, ds, he, hd, _⟩ := exists_escapeChar_eq_cons (Bool.eq_false_iff.mpr hc)
        rw [List.takeWhile_cons_of_neg hc, escape_cons, he, List.cons_append,
          List.takeWhile_cons_of_neg (by rw [hd]; decide)]

/-! ## pieces of escaped text -/

/-- The pieces that stand for a piece when a text is escaped. -/
def escapePiece : Piece → List Piece
  | .char c => (Json.escapeChar c).map .char
  | .tag name => [.tag name]

/-- **Escaping keeps the tags**: the pieces of an escaped text are the pieces of the text, each
character escaped and each tag as it was. -/
theorem scan_escape (s : List Char) : scan (Json.escape s) = (scan s).flatMap escapePiece := by
  fun_induction scan s with
  | case1 => exact scan_nil
  | case2 cs rest hcs hname ih =>
      have hdrop : (Json.escape cs).dropWhile isTagChar = '>' :: Json.escape rest := by
        rw [dropWhile_escape, hcs]
        rfl
      have hspell := spell_takeWhile_append hdrop []
      rw [List.append_nil, List.append_nil, takeWhile_escape] at hspell
      have hcons : Json.escape ('<' :: cs) = '<' :: Json.escape cs := rfl
      rw [hcons, hspell, scan_tag hname (fun c hc => List.mem_takeWhile_imp hc), ih]
      rfl
  | case3 cs rest hcs hname ih =>
      have hcons : Json.escape ('<' :: cs) = '<' :: Json.escape cs := rfl
      rw [hcons, scan_bracket, ih]
      · rfl
      · intro _ _
        rw [takeWhile_escape]
        exact Bool.eq_false_iff.mpr hname
  | case4 cs hcs ih =>
      have hcons : Json.escape ('<' :: cs) = '<' :: Json.escape cs := rfl
      rw [hcons, scan_bracket, ih]
      · rfl
      · exact fun rest hrest => absurd hrest (dropWhile_escape_ne hcs rest)
  | case5 c cs hc ih =>
      rw [escape_cons, scan_chars_append (bracket_notMem_escapeChar hc), ih]
      rfl

theorem tag_mem_flatMap_escapePiece {name : List Char} {ps : List Piece} :
    .tag name ∈ ps.flatMap escapePiece ↔ .tag name ∈ ps := by
  induction ps with
  | nil => rfl
  | cons p ps ih =>
      cases p with
      | char c => simp [escapePiece, ih]
      | tag n => simp [escapePiece, ih]

theorem escape_tagChars {s : List Char} (h : ∀ c ∈ s, isTagChar c = true) : Json.escape s = s := by
  induction s with
  | nil => rfl
  | cons c cs ih =>
      rw [escape_cons, escapeChar_of_isTagChar (h c List.mem_cons_self),
        ih fun d hd => h d (List.mem_cons_of_mem c hd)]
      rfl

theorem spell_escapePiece {p : Piece}
    (h : ∀ name, p = .tag name → ∀ c ∈ name, isTagChar c = true) :
    spell (escapePiece p) = Json.escape p.spell := by
  cases p with
  | char c => simp [escapePiece, Piece.spell, Json.escape]
  | tag name =>
      have hbrackets : Json.escape ['<'] = ['<'] ∧ Json.escape ['>'] = ['>'] := by decide
      have hspell : (Piece.tag name).spell = ['<'] ++ (name ++ ['>']) := rfl
      rw [hspell, escape_append, escape_append, escape_tagChars (h name rfl), hbrackets.1,
        hbrackets.2]
      simp [escapePiece, Piece.spell]

/-- Pieces of a text, spelled after escaping them, are the escaped text that they spell. -/
theorem spell_flatMap_escapePiece {ps : List Piece}
    (h : ∀ name, .tag name ∈ ps → ∀ c ∈ name, isTagChar c = true) :
    spell (ps.flatMap escapePiece) = Json.escape (spell ps) := by
  induction ps with
  | nil => rfl
  | cons p ps ih =>
      have hp := spell_escapePiece fun name hname => h name (hname ▸ List.mem_cons_self)
      have hps := ih fun name hin => h name (List.mem_cons_of_mem p hin)
      rw [List.flatMap_cons, spell_append, hp, hps, spell_cons, escape_append]

end InstallAssistant.Markup
