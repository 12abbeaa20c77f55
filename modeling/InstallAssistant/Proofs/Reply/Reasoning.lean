import InstallAssistant.Reply
import InstallAssistant.Proofs.Markup
import InstallAssistant.Proofs.Text

/-!
# InstallAssistant.Proofs.Reply.Reasoning

What is cut out of a reply as reasoning:

* nothing, when no tag of reasoning is there (`splitReasoning_of_unreasoned`);
* what stands between the tags of the first block, up to the first closing tag
  (`splitReasoning_append_block`, `exists_splitReasoning_block_cut`), or up to the
  end of the text (`splitReasoning_append_open`);
* always one run of pieces (`exists_splitReasoning_eq`), so that what is left is the
  whole text or shorter (`splitReasoning_snd`).

Unifying line breaks makes no tags (`tag_mem_scan_of_unifyBreaks`).
-/

namespace InstallAssistant.Reply

open Markup

/-! ## reasoning that is kept -/

theorem reasoning?_eq_some_iff {s : List Char} {t : String} :
    reasoning? s = some t ↔ Text.trimChars s = t.toList ∧ t.toList ≠ [] := by
  rw [reasoning?, Text.nonBlank?_eq_some_iff, String.toList_ofList]

theorem reasoning?_toList (t : String) : reasoning? t.toList = Text.nonBlank? t := by
  rw [reasoning?, String.ofList_toList]

theorem reasoning?_eq_none_iff {s : List Char} : reasoning? s = none ↔ Text.trimChars s = [] := by
  rw [reasoning?, Text.nonBlank?_eq_none_iff, String.toList_ofList]

/-! ## texts without reasoning -/

/-- A text that has no tag of reasoning. -/
def Unreasoned (s : List Char) : Prop :=
  .tag "think".toList ∉ scan s ∧ .tag "/think".toList ∉ scan s

theorem Unreasoned.of_isInfix {s t : List Char} (h : Unreasoned t) (hst : s <:+: t) :
    Unreasoned s :=
  ⟨fun hin => h.1 (tag_mem_scan_of_isInfix hin hst),
    fun hin => h.2 (tag_mem_scan_of_isInfix hin hst)⟩

theorem splitReasoning_of_unreasoned {s : List Char} (h : Unreasoned s) :
    splitReasoning s = (none, s) := by
  have hopen : cutAt? "think" (scan s) = none := cutAt?_eq_none_iff.mpr h.1
  have hclose : cutAt? "/think" (scan s) = none := cutAt?_eq_none_iff.mpr h.2
  simp only [splitReasoning, hopen, hclose]

/-! ## blocks of reasoning -/

theorem scan_think_append (s : List Char) :
    scan (tagText "think" ++ s) = .tag "think".toList :: scan s :=
  scan_tagText_append rfl rfl s

/-- The pieces of a text, of the tag that closes a block, and of what follows it. -/
theorem scan_append_think (x s : List Char) :
    scan (x ++ (tagText "/think" ++ s)) = scan x ++ .tag "/think".toList :: scan s := by
  have hfresh : Fresh (tagText "/think" ++ s) := fresh_bracket _
  rw [scan_append (.inr hfresh), scan_tagText_append rfl rfl]

/-- The pieces of a text, of the tag that opens a block, and of what follows it. -/
theorem scan_append_think_open (x s : List Char) :
    scan (x ++ (tagText "think" ++ s)) = scan x ++ .tag "think".toList :: scan s := by
  have hfresh : Fresh (tagText "think" ++ s) := fresh_bracket _
  rw [scan_append (.inr hfresh), scan_think_append]

/-- **A block is cut out** of the reply, whatever stands before it but another block. -/
theorem splitReasoning_append_block {p x : List Char} (hp : .tag "think".toList ∉ scan p)
    (h : .tag "/think".toList ∉ scan x) (s : List Char) :
    splitReasoning (p ++ (tagText "think" ++ (x ++ (tagText "/think" ++ s)))) =
      (reasoning? x, p ++ s) := by
  have hopen : cutAt? "think" (scan p ++ .tag "think".toList ::
      (scan x ++ .tag "/think".toList :: scan s)) =
      some (scan p, scan x ++ .tag "/think".toList :: scan s) :=
    cutAt?_eq_some_iff.mpr ⟨rfl, hp⟩
  have hclose : cutAt? "/think" (scan x ++ .tag "/think".toList :: scan s) =
      some (scan x, scan s) := cutAt?_eq_some_iff.mpr ⟨rfl, h⟩
  simp only [splitReasoning, scan_append_think_open, scan_append_think, hopen, hclose, spell_scan]

/-- **A block without its end** reaches to the end of the text. -/
theorem splitReasoning_append_open {p x : List Char} (hp : .tag "think".toList ∉ scan p)
    (h : .tag "/think".toList ∉ scan x) :
    splitReasoning (p ++ (tagText "think" ++ x)) = (reasoning? x, p) := by
  have hopen : cutAt? "think" (scan p ++ .tag "think".toList :: scan x) =
      some (scan p, scan x) := cutAt?_eq_some_iff.mpr ⟨rfl, hp⟩
  have hclose : cutAt? "/think" (scan x) = none := cutAt?_eq_none_iff.mpr h
  simp only [splitReasoning, scan_append_think_open, hopen, hclose, spell_scan]

theorem splitReasoning_block {x : List Char} (h : .tag "/think".toList ∉ scan x) (s : List Char) :
    splitReasoning (tagText "think" ++ (x ++ (tagText "/think" ++ s))) = (reasoning? x, s) :=
  splitReasoning_append_block (p := []) (by simp) h s

theorem splitReasoning_open {x : List Char} (h : .tag "/think".toList ∉ scan x) :
    splitReasoning (tagText "think" ++ x) = (reasoning? x, []) :=
  splitReasoning_append_open (p := []) (by simp) h

/-- **Reasoning that closes its block** is kept up to there only. -/
theorem exists_splitReasoning_block_cut {x : List Char} (h : .tag "/think".toList ∈ scan x)
    (s : List Char) :
    ∃ front rest, x = front ++ tagText "/think" ++ rest ∧
      (splitReasoning (tagText "think" ++ (x ++ (tagText "/think" ++ s)))).1 =
        reasoning? front := by
  obtain ⟨f, r, hcut⟩ := exists_cutAt? h
  obtain ⟨hscan, hfront⟩ := cutAt?_eq_some_iff.mp hcut
  have hclose : cutAt? "/think" (scan x ++ .tag "/think".toList :: scan s) =
      some (f, r ++ .tag "/think".toList :: scan s) := by
    rw [cutAt?_eq_some_iff, hscan]
    exact ⟨by simp, hfront⟩
  refine ⟨spell f, spell r, eq_of_cutAt?_scan hcut, ?_⟩
  simp only [splitReasoning, scan_think_append, scan_append_think, cutAt?_cons_self, hclose]

/-! ### blocks on lines of their own -/

/-- Reasoning as it is written before a text. -/
def thinkBlock (u s : List Char) : List Char :=
  tagText "think" ++ (('\n' :: (u ++ ['\n'])) ++ (tagText "/think" ++ '\n' :: s))

theorem reasoning?_lines (u : List Char) : reasoning? ('\n' :: (u ++ ['\n'])) = reasoning? u := by
  have htrim : Text.trimChars ('\n' :: (u ++ ['\n'])) = Text.trimChars u :=
    Text.trimChars_append_blank Text.isBlank_break Text.isBlank_break u
  rw [reasoning?, reasoning?, Text.nonBlank?, Text.nonBlank?, Text.trim, Text.trim,
    String.toList_ofList, String.toList_ofList, htrim]

theorem tag_mem_scan_lines {name u : List Char} :
    .tag name ∈ scan ('\n' :: (u ++ ['\n'])) ↔ .tag name ∈ scan u := by
  have hfresh : Fresh ['\n'] := fresh_cons (by decide) []
  rw [scan_char (by decide), scan_append (.inr hfresh), scan_char (by decide), scan_nil]
  simp

theorem splitReasoning_thinkBlock {u : List Char} (h : .tag "/think".toList ∉ scan u)
    (s : List Char) : splitReasoning (thinkBlock u s) = (reasoning? u, '\n' :: s) := by
  rw [thinkBlock, splitReasoning_block (fun hin => h (tag_mem_scan_lines.mp hin)),
    reasoning?_lines]

/-- Reasoning that comes back in full does not close its block. -/
theorem not_closes_of_splitReasoning {u s : List Char} {t : String}
    (h : (splitReasoning (thinkBlock u s)).1 = some t) (hlen : u.length ≤ t.toList.length) :
    .tag "/think".toList ∉ scan u := by
  intro hin
  obtain ⟨front, rest, hx, hsplit⟩ :=
    exists_splitReasoning_block_cut (tag_mem_scan_lines.mpr hin) ('\n' :: s)
  rw [thinkBlock, hsplit] at h
  have htrim := Text.length_trimChars_le front
  rw [(reasoning?_eq_some_iff.mp h).1] at htrim
  have hsum := congrArg List.length hx
  have htag : (tagText "/think").length = 8 := rfl
  simp only [List.length_append, List.length_cons, List.length_nil] at hsum
  omega

/-- **A block that is cut** leaves nothing that could have a tag, unless it is cut behind its
end. -/
theorem splitReasoning_of_isPrefix {u s p : List Char} (h : .tag "/think".toList ∉ scan u)
    (hp : p <+: thinkBlock u s) :
    (∃ v, v <+: s ∧ splitReasoning p = (reasoning? u, '\n' :: v)) ∨
      ∀ name, .tag name ∉ scan (splitReasoning p).2 := by
  have hlines : .tag "/think".toList ∉ scan ('\n' :: (u ++ ['\n'])) :=
    fun hin => h (tag_mem_scan_lines.mp hin)
  have hnil : ∀ name, .tag name ∉ scan [] := by simp
  rcases List.prefix_or_prefix_of_prefix hp (List.prefix_append _ _) with hcut | ⟨x, rfl⟩
  · right
    by_cases hp : p = tagText "think"
    · have hopen := splitReasoning_open (x := []) (hnil _)
      rw [List.append_nil] at hopen
      rw [hp, hopen]
      exact hnil
    · have hno : ∀ name, .tag name ∉ scan p :=
        fun name hin => hnil name (tag_mem_scan_of_cut (w := []) (by decide) hcut hp hin)
      rw [splitReasoning_of_unreasoned ⟨hno _, hno _⟩]
      exact hno
  · rw [thinkBlock, List.prefix_append_right_inj, ← List.append_assoc] at hp
    rcases List.prefix_or_prefix_of_prefix hp (List.prefix_append _ _) with hcut | ⟨r, rfl⟩
    · right
      by_cases hx : x = '\n' :: (u ++ ['\n']) ++ tagText "/think"
      · have hblock := splitReasoning_block hlines []
        rw [List.append_nil] at hblock
        rw [hx, hblock]
        exact hnil
      · have hclose : .tag "/think".toList ∉ scan x :=
          fun hin => hlines (tag_mem_scan_of_cut (by decide) hcut hx hin)
        rw [splitReasoning_open hclose]
        exact hnil
    · rw [List.prefix_append_right_inj] at hp
      rw [List.append_assoc, splitReasoning_block hlines, reasoning?_lines]
      rcases List.prefix_cons_iff.mp hp with rfl | ⟨v, rfl, hv⟩
      · exact .inr hnil
      · exact .inl ⟨v, hv, rfl⟩

theorem unifyBreaks_thinkBlock {u : List Char} (hu : u.getLast? ≠ some '\r') (s : List Char) :
    Text.unifyBreaks (thinkBlock u s) =
      thinkBlock (Text.unifyBreaks u) (Text.unifyBreaks s) := by
  let head := tagText "think" ++ ['\n']
  let tail := '\n' :: (tagText "/think" ++ ['\n'])
  have hblock : ∀ u s, thinkBlock u s = head ++ (u ++ (tail ++ s)) := by
    intro u s
    simp [thinkBlock, head, tail]
  have hhead : Text.unifyBreaks head = head := Text.unifyBreaks_of_not_mem (by decide)
  have htail : Text.unifyBreaks tail = tail := Text.unifyBreaks_of_not_mem (by decide)
  have hheadLast : head.getLast? ≠ some '\r' := by decide
  have htailLast : tail.getLast? ≠ some '\r' := by decide
  rw [hblock, hblock, Text.unifyBreaks_append (.inl hheadLast), Text.unifyBreaks_append (.inl hu),
    Text.unifyBreaks_append (.inl htailLast), hhead, htail]

/-! ## what is left -/

/-- **Reasoning is cut out whole**: one run of pieces is taken out of the text, and what is kept of
it is the reasoning of some text. -/
theorem exists_splitReasoning_eq (s : List Char) :
    ∃ front gap rest : List Piece, ∃ x : List Char, scan s = front ++ gap ++ rest ∧
      splitReasoning s = (reasoning? x, spell front ++ spell rest) := by
  cases hopen : cutAt? "think" (scan s) with
  | some cut =>
      obtain ⟨front, behind⟩ := cut
      have hscan := (cutAt?_eq_some_iff.mp hopen).1
      cases hclose : cutAt? "/think" behind with
      | some cut =>
          obtain ⟨inside, rest⟩ := cut
          refine ⟨front, .tag "think".toList :: inside ++ [.tag "/think".toList], rest,
            spell inside, ?_, ?_⟩
          · rw [hscan, (cutAt?_eq_some_iff.mp hclose).1]
            simp
          · simp only [splitReasoning, hopen, hclose]
      | none =>
          refine ⟨front, .tag "think".toList :: behind, [], spell behind, ?_, ?_⟩
          · rw [hscan, List.append_nil]
          · simp only [splitReasoning, hopen, hclose, spell_nil, List.append_nil]
  | none =>
      cases hclose : cutAt? "/think" (scan s) with
      | some cut =>
          obtain ⟨inside, rest⟩ := cut
          refine ⟨[], inside ++ [.tag "/think".toList], rest, spell inside, ?_, ?_⟩
          · rw [(cutAt?_eq_some_iff.mp hclose).1]
            simp
          · simp only [splitReasoning, hopen, hclose, spell_nil, List.nil_append]
      | none =>
          have hnone : reasoning? [] = none := rfl
          refine ⟨scan s, [], [], [], by simp, ?_⟩
          simp only [splitReasoning, hopen, hclose, hnone, spell_scan, spell_nil, List.append_nil]

/-- What is split off is reasoning that is worth keeping, or nothing. -/
theorem exists_splitReasoning_fst (s : List Char) :
    ∃ x, (splitReasoning s).1 = reasoning? x := by
  obtain ⟨_, _, _, x, _, hsplit⟩ := exists_splitReasoning_eq s
  exact ⟨x, by rw [hsplit]⟩

/-- What is left is the whole text or a shorter one. -/
theorem splitReasoning_snd (s : List Char) :
    (splitReasoning s).2 = s ∨ (splitReasoning s).2.length < s.length := by
  obtain ⟨front, gap, rest, x, hscan, hsplit⟩ := exists_splitReasoning_eq s
  have hs : s = spell front ++ spell gap ++ spell rest := by
    rw [← spell_append, ← spell_append, ← hscan, spell_scan]
  rw [hsplit]
  by_cases hgap : gap = []
  · left
    rw [hs, hgap, spell_nil, List.append_nil]
  · right
    have hpos : 0 < (spell gap).length :=
      List.length_pos_of_ne_nil (mt eq_nil_of_spell_eq_nil hgap)
    have hlen := congrArg List.length hs
    simp only [List.length_append] at hlen ⊢
    omega

/-! ## line breaks and tags -/

theorem isPrefix_of_unifyBreaks {w s : List Char} (hw : '\n' ∉ w) (h : w <+: Text.unifyBreaks s) :
    w <+: s := by
  fun_induction Text.unifyBreaks s generalizing w with
  | case1 rest ih =>
      rcases List.prefix_cons_iff.mp h with rfl | ⟨v, rfl, _⟩
      · exact List.nil_prefix
      · exact absurd List.mem_cons_self hw
  | case2 c rest hpair ih =>
      rcases List.prefix_cons_iff.mp h with rfl | ⟨v, rfl, hv⟩
      · exact List.nil_prefix
      · have hin := ih (fun hin => hw (List.mem_cons_of_mem c hin)) hv
        exact (List.prefix_cons_inj c).mpr hin
  | case3 => exact h

theorem isInfix_of_unifyBreaks {w s : List Char} (hw : '\n' ∉ w) (h : w <:+: Text.unifyBreaks s) :
    w <:+: s := by
  fun_induction Text.unifyBreaks s with
  | case1 rest ih =>
      rcases List.infix_cons_iff.mp h with hpre | hin
      · rcases List.prefix_cons_iff.mp hpre with rfl | ⟨v, rfl, _⟩
        · exact List.nil_infix
        · exact absurd List.mem_cons_self hw
      · exact (ih hin).trans (List.suffix_append ['\r', '\n'] rest).isInfix
  | case2 c rest hpair ih =>
      rcases List.infix_cons_iff.mp h with hpre | hin
      · have hcons := Text.unifyBreaks.eq_2 c rest hpair
        rw [← hcons] at hpre
        exact (isPrefix_of_unifyBreaks hw hpre).isInfix
      · exact (ih hin).trans (List.suffix_cons c rest).isInfix
  | case3 => exact h

/-- **Unifying breaks makes no tags**: no break can stand in one. -/
theorem tag_mem_scan_of_unifyBreaks {name s : List Char}
    (h : .tag name ∈ scan (Text.unifyBreaks s)) : .tag name ∈ scan s := by
  obtain ⟨h₁, h₂, h₃⟩ := tag_mem_scan_iff.mp h
  have hbreak : '\n' ∉ (Piece.tag name).spell := by
    intro hin
    have hname : '\n' ∈ name := by simpa [Piece.spell] using hin
    have := h₂ _ hname
    contradiction
  exact tag_mem_scan_iff.mpr ⟨h₁, h₂, isInfix_of_unifyBreaks hbreak h₃⟩

theorem Unreasoned.unifyBreaks {s : List Char} (h : Unreasoned s) :
    Unreasoned (Text.unifyBreaks s) :=
  ⟨fun hin => h.1 (tag_mem_scan_of_unifyBreaks hin),
    fun hin => h.2 (tag_mem_scan_of_unifyBreaks hin)⟩

end InstallAssistant.Reply
