import InstallAssistant.Proofs.Markup.Slice
import InstallAssistant.Proofs.Reply.Call
import InstallAssistant.Proofs.Text.Occurrence

/-!
# InstallAssistant.Proofs.Reply.Seam

Where a call comes from.  Reasoning is cut out of a reply before it is searched
for a call, so what stood before the cut comes to stand next to what stood behind
it.  The tags of the text that is left are those of the reply outside the cut, as
they were, and besides them only tags that are spelled across the seam
(`tag_mem_scan_body_iff`).  So a call is a tag of the reply outside its reasoning
unless its tag is put together from both sides
(`comesToCall_iff_outside_or_across`), which happens
(`reboots_without_call_tag`).
-/

namespace InstallAssistant

open Markup Text

/-- The tags of two texts side by side: those of each, and those spelled across the border. -/
theorem Markup.tag_mem_scan_append_iff {name x y : List Char} :
    .tag name ∈ scan (x ++ y) ↔ .tag name ∈ scan x ∨ .tag name ∈ scan y ∨
      isTagName name = true ∧ (∀ c ∈ name, isTagChar c = true) ∧
        ¬ Apart (Piece.tag name).spell x y := by
  simp only [tag_mem_scan_iff, isInfix_append_iff]
  grind

namespace Reply

/-! ## the cut -/

/-- The bytes that are cut out of a text as reasoning.  Where nothing is, the span is empty and at
the end of the text. -/
def cutSpan (s : List Char) : Nat × Nat :=
  match findTag? "think" 0 (tags s) with
  | some opening =>
    (opening.start,
      ((findTag? "/think" opening.stop (tags s)).map Tag.stop).getD (byteLength s))
  | none =>
    match findTag? "/think" 0 (tags s) with
    | some closing => (0, closing.stop)
    | none => (byteLength s, byteLength s)

/-- A tag lies before a span or behind it. -/
def Outside (span : Nat × Nat) (t : Tag) : Prop := t.stop ≤ span.1 ∨ span.2 ≤ t.start

/-- A tag of the name is spelled across the cut: it begins at the end of the text before the cut and
goes on at the start of the text behind it. -/
def JoinsAcross (s name : List Char) : Prop :=
  ∃ front rest, slice? s 0 (cutSpan s).1 = some front ∧
    slice? s (cutSpan s).2 (byteLength s) = some rest ∧
    isTagName name = true ∧ (∀ c ∈ name, isTagChar c = true) ∧
    ¬ Apart (Piece.tag name).spell front rest

/-- A text with the parts before, in and behind its cut.  The cut begins and ends where no tag
does not. -/
structure CutsAt (s front gap rest : List Char) : Prop where
  whole : s = front ++ gap ++ rest
  span : cutSpan s = (byteLength front, byteLength (front ++ gap))
  body : (splitReasoning s).2 = front ++ rest
  pieces : ∃ inside, spell inside = gap ∧ scan s = scan front ++ inside ++ scan rest

/-- A cut is one of pieces, if the pieces around it are those of their texts. -/
theorem CutsAt.of_pieces {s : List Char} (front inside rest : List Piece)
    (hscan : scan s = front ++ inside ++ rest) (hfront : scan (spell front) = front)
    (hrest : scan (spell rest) = rest)
    (hspan : cutSpan s = (byteLength (spell front), byteLength (spell (front ++ inside))))
    (hbody : (splitReasoning s).2 = spell front ++ spell rest) :
    CutsAt s (spell front) (spell inside) (spell rest) where
  whole := by rw [← spell_append, ← spell_append, ← hscan, spell_scan]
  span := by rw [hspan, spell_append]
  body := hbody
  pieces := ⟨inside, rfl, by rw [hfront, hrest, hscan]⟩

/-- **Reasoning is cut out between tags**, whichever of its tags are there. -/
theorem exists_cutsAt (s : List Char) : ∃ front gap rest, CutsAt s front gap rest := by
  cases hopen : cutAt? "think" (scan s) with
  | none =>
      cases hclose : cutAt? "/think" (scan s) with
      | none =>
          refine ⟨_, _, _, .of_pieces (scan s) [] [] ?_ ?_ scan_nil ?_ ?_⟩
          · simp
          · rw [spell_scan]
          · simp [cutSpan, findTag?_start, hopen, hclose]
          · simp [splitReasoning, hopen, hclose]
      | some cut =>
          obtain ⟨inside, rest⟩ := cut
          have hscan := (cutAt?_eq_some_iff.mp hclose).1
          refine ⟨_, _, _, .of_pieces [] (inside ++ [.tag "/think".toList]) rest ?_ scan_nil
            (scan_spell_of_scan_eq hscan).2 ?_ ?_⟩
          · simpa using hscan
          · simp [cutSpan, findTag?_start, hopen, hclose, tagAfter]
          · simp [splitReasoning, hopen, hclose]
  | some cut =>
      obtain ⟨front, behind⟩ := cut
      have hscan := (cutAt?_eq_some_iff.mp hopen).1
      obtain ⟨hfront, hbehind⟩ := scan_spell_of_scan_eq hscan
      cases hclose : cutAt? "/think" behind with
      | none =>
          refine ⟨_, _, _, .of_pieces front (.tag "think".toList :: behind) [] ?_ hfront scan_nil
            ?_ ?_⟩
          · simpa using hscan
          · simp only [cutSpan, findTag?_start, hopen, Option.map_some, findTag?_behind hopen,
              hclose, Option.map_none, Option.getD_none]
            rw [← hscan, spell_scan]
            rfl
          · simp [splitReasoning, hopen, hclose]
      | some cut =>
          obtain ⟨inside, rest⟩ := cut
          have hrest := (cutAt?_eq_some_iff.mp hclose).1
          refine ⟨_, _, _, .of_pieces front
            (.tag "think".toList :: inside ++ [.tag "/think".toList]) rest ?_ hfront
            (scan_spell_of_scan_eq (hbehind.trans hrest)).2 ?_ ?_⟩
          · rw [hscan, hrest]
            simp
          · simp only [cutSpan, findTag?_start, hopen, Option.map_some, findTag?_behind hopen,
              hclose, Option.getD_some]
            simp [tagAfter]
          · simp [splitReasoning, hopen, hclose]

section

variable {s front gap rest : List Char} (h : CutsAt s front gap rest)

include h

/-- **The tags outside the cut** are those of the text before it and those of the text behind it. -/
theorem CutsAt.exists_outside_iff {name : List Char} :
    (∃ t ∈ tags s, t.name = name ∧ Outside (cutSpan s) t) ↔
      .tag name ∈ scan front ∨ .tag name ∈ scan rest := by
  obtain ⟨inside, hinside, hscan⟩ := h.pieces
  have htags : tags s = tagsFrom 0 (scan front) ++ tagsFrom (byteLength front) inside ++
      tagsFrom (byteLength (front ++ gap)) (scan rest) := by
    simp [tags, hscan, hinside]
  simp only [htags, h.span, Outside, List.mem_append]
  constructor
  · rintro ⟨t, (ht | ht) | ht, rfl, hout⟩
    · exact .inl ((mem_map_name_tagsFrom 0).mp (List.mem_map_of_mem ht))
    · -- a tag within the cut neither ends before it nor starts behind it
      have hbounds := bounds_of_mem_tagsFrom ht
      rw [hinside, ← byteLength_append] at hbounds
      omega
    · exact .inr ((mem_map_name_tagsFrom _).mp (List.mem_map_of_mem ht))
  · rintro (hin | hin)
    · obtain ⟨t, ht, hname⟩ := List.mem_map.mp ((mem_map_name_tagsFrom 0).mpr hin)
      have hbounds := bounds_of_mem_tagsFrom ht
      rw [spell_scan, Nat.zero_add] at hbounds
      exact ⟨t, .inl (.inl ht), hname, .inl hbounds.2.2⟩
    · obtain ⟨t, ht, hname⟩ :=
        List.mem_map.mp ((mem_map_name_tagsFrom (byteLength (front ++ gap))).mpr hin)
      exact ⟨t, .inr ht, hname, .inr (bounds_of_mem_tagsFrom ht).1⟩

theorem CutsAt.joinsAcross_iff {name : List Char} :
    JoinsAcross s name ↔ isTagName name = true ∧ (∀ c ∈ name, isTagChar c = true) ∧
      ¬ Apart (Piece.tag name).spell front rest := by
  have hfront : slice? s 0 (byteLength front) = some front :=
    slice?_front (z := gap ++ rest) (by rw [h.whole, List.append_assoc])
  have hrest : slice? s (byteLength (front ++ gap)) (byteLength s) = some rest :=
    slice?_rest h.whole
  simp only [JoinsAcross, h.span, hfront, hrest, Option.some.injEq, exists_and_left,
    exists_eq_left']

end

/-! ## the tags that are left -/

/-- **The tags that are left** are those outside the cut and those spelled across it. -/
theorem tag_mem_scan_body_iff {s name : List Char} :
    .tag name ∈ scan (splitReasoning s).2 ↔
      (∃ t ∈ tags s, t.name = name ∧ Outside (cutSpan s) t) ∨ JoinsAcross s name := by
  obtain ⟨front, gap, rest, h⟩ := exists_cutsAt s
  rw [h.exists_outside_iff, h.joinsAcross_iff, h.body, tag_mem_scan_append_iff, or_assoc]

/-! ## where calls come from -/

/-- A reply is taken for a call: it stands for a command, or its call is at fault. -/
def ComesToCall (raw : String) : Prop :=
  (∃ command thinking, decode raw = .ok ⟨.command, command, thinking⟩) ∨
    ∃ fault, decode raw = .error (.malformedCall fault)

theorem comesToCall_iff {raw : String} :
    ComesToCall raw ↔
      .tag "tool_call".toList ∈ scan (splitReasoning (unifyBreaks raw.toList)).2 := by
  cases hsplit : splitReasoning (unifyBreaks raw.toList) with
  | mk thinking body =>
      cases hpayload : callPayload? body with
      | none =>
          have hno := callPayload?_eq_none_iff.mp hpayload
          cases hanswer : nonBlank? (String.ofList (strip (scan body))) <;>
            simpa [ComesToCall, decode, hsplit, hpayload, hanswer] using hno
      | some payload =>
          have hin : .tag "tool_call".toList ∈ scan body := by
            by_contra hno
            rw [callPayload?_eq_none_iff.mpr hno] at hpayload
            cases hpayload
          cases hcommand : command? (String.ofList payload) <;>
            simpa [ComesToCall, decode, hsplit, hpayload, hcommand] using hin

/-- **Where calls come from**: a reply is taken for a call exactly if a tag that opens one stands in
it outside the reasoning, or is put together from the texts around the reasoning.  And that is so of
any tag in what is left of the reply: it stood there before, or its two parts did. -/
theorem comesToCall_iff_outside_or_across (raw : String) :
    (ComesToCall raw ↔
      (∃ t ∈ tags (unifyBreaks raw.toList), t.name = "tool_call".toList ∧
        Outside (cutSpan (unifyBreaks raw.toList)) t) ∨
      JoinsAcross (unifyBreaks raw.toList) "tool_call".toList) ∧
    ∀ name, .tag name ∈ scan (splitReasoning (unifyBreaks raw.toList)).2 ↔
      (∃ t ∈ tags (unifyBreaks raw.toList), t.name = name ∧
        Outside (cutSpan (unifyBreaks raw.toList)) t) ∨
      JoinsAcross (unifyBreaks raw.toList) name :=
  ⟨comesToCall_iff.trans tag_mem_scan_body_iff, fun _ => tag_mem_scan_body_iff⟩

/-- A command is run although no tag opens a call anywhere in the reply. -/
theorem reboots_without_call_tag :
    let raw := "<tool_<think>x</think>call>\n\x7b\"name\":\"run_shell_command\"," ++
      "\"arguments\":\x7b\"command\":\"reboot\"\x7d\x7d\n</tool_call>"
    decode raw = .ok ⟨.command, "reboot", some "x"⟩ ∧
      ∀ t ∈ tags (unifyBreaks raw.toList), t.name ≠ "tool_call".toList := by
  decide +kernel

end Reply

end InstallAssistant
