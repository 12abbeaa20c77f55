import InstallAssistant.Proofs.Chat.Template
import InstallAssistant.Proofs.Markup.Slice
import InstallAssistant.Proofs.Reply.Content

/-!
# InstallAssistant.Proofs.Reply.Residue

Tags in an answer.  The tags of a reply are taken out of it in one pass, and what
stood on both sides of a tag comes to stand together.  So a tag is left in the
answer exactly if it is put together from pieces around tags
(`tag_mem_scan_strip_iff`); trimming the answer changes nothing about that
(`tag_mem_scan_trimChars`).  An answer without such a tag has none, and can be sent
back as a turn of the next conversation (`markup_of_answer_iff`); with one it may
be refused (`answer_refused_as_turn`).
-/

namespace InstallAssistant

open Markup Text

namespace Markup

/-! ## tags that are put together -/

/-- A tag of the name is put together among pieces: some of them spell it once the tags among them
are taken out. -/
def PutTogether (name : List Char) (ps : List Piece) : Prop :=
  isTagName name = true ∧ (∀ c ∈ name, isTagChar c = true) ∧
    ∃ front middle rest, ps = front ++ middle ++ rest ∧
      strip middle = (Piece.tag name).spell ∧ ∃ other, .tag other ∈ middle

/-- **The tags that stripping leaves** are those that it puts together. -/
theorem tag_mem_scan_strip_iff {name s : List Char} :
    .tag name ∈ scan (strip (scan s)) ↔ PutTogether name (scan s) := by
  rw [tag_mem_scan_iff, PutTogether, and_congr_right_iff]
  intro hname
  rw [and_congr_right_iff]
  intro hchars
  constructor
  · rintro ⟨x, y, hinfix⟩
    obtain ⟨before, rest, hscan, hbefore, _⟩ := strip_eq_append_iff.mp hinfix.symm
    obtain ⟨front, middle, rfl, _, hmiddle⟩ := strip_eq_append_iff.mp hbefore
    refine ⟨front, middle, rest, hscan, hmiddle, ?_⟩
    by_contra hno
    push Not at hno
    -- without a tag in it, the middle would spell the tag in the text itself
    have hspell : spell middle = (Piece.tag name).spell := by
      rw [← strip_of_no_tag hno, hmiddle]
    have hs : s = spell front ++ ((Piece.tag name).spell ++ spell rest) := by
      rw [← spell_scan s, hscan, spell_append, spell_append, hspell, List.append_assoc]
    have hpieces : scan (spell front ++ ((Piece.tag name).spell ++ spell rest)) =
        front ++ (middle ++ rest) := by
      rw [← hs, hscan, List.append_assoc]
    have htag := (eq_tag_cons_of_scan_eq hname hchars hpieces).2
    cases middle with
    | nil => simp [Piece.spell] at hspell
    | cons p middle => exact hno name ((List.cons.inj htag).1 ▸ List.mem_cons_self)
  · rintro ⟨front, middle, rest, hscan, hmiddle, _⟩
    exact ⟨strip front, strip rest, by rw [hscan, strip_append, strip_append, hmiddle]⟩

/-! ## trimming -/

theorem properties_of_isBlank {c : Char} (h : isBlank c = true) :
    c ≠ '<' ∧ c ≠ '>' ∧ isTagChar c = false := by
  by_cases hlow : c.toNat < 0x80
  · have hall : ∀ n < 0x80, isBlank (Char.ofNat n) = true → Char.ofNat n ≠ '<' ∧
        Char.ofNat n ≠ '>' ∧ isTagChar (Char.ofNat n) = false := by decide
    have hc := hall c.toNat hlow
    rw [Char.ofNat_toNat] at hc
    exact hc h
  · refine ⟨?_, ?_, Bool.eq_false_iff.mpr fun htag => hlow (Lexer.asciiOnly_isTagChar c htag)⟩
    · rintro rfl
      exact hlow (by decide)
    · rintro rfl
      exact hlow (by decide)

/-- **Trimming leaves all tags**, and makes none. -/
theorem tag_mem_scan_trimChars {name s : List Char} :
    .tag name ∈ scan (trimChars s) ↔ .tag name ∈ scan s := by
  obtain ⟨a, b, hs, ha, hb⟩ := exists_blanks_trimChars s
  have hplain : ∀ x : List Char, (∀ c ∈ x, isBlank c = true) → '<' ∉ x :=
    fun x hx hin => (properties_of_isBlank (hx '<' hin)).1 rfl
  have hfresh : Fresh b := fun c hc =>
    (properties_of_isBlank (hb c (List.mem_of_mem_head? hc))).2
  constructor
  · exact fun hin => tag_mem_scan_of_isInfix hin (trimChars_isInfix s)
  · intro hin
    rw [hs, List.append_assoc, scan_chars_append (hplain a ha), scan_append (.inr hfresh),
      scan_chars (hplain b hb)] at hin
    simpa using hin

theorem tags_eq_nil_iff {s : List Char} : tags s = [] ↔ ∀ name, .tag name ∉ scan s := by
  simp only [← mem_map_name_tags, ← List.eq_nil_iff_forall_not_mem, List.map_eq_nil_iff]

end Markup

namespace Reply

/-! ## answers -/

/-- The tags in an answer are those that are put together when the others are taken out. -/
theorem tag_mem_answer_iff {raw answer : String} {thinking : Option String} {name : List Char}
    (h : decode raw = .ok ⟨.text, answer, thinking⟩) :
    .tag name ∈ scan answer.toList ↔
      PutTogether name (scan (splitReasoning (unifyBreaks raw.toList)).2) := by
  obtain ⟨_, _, hanswer⟩ := decode_eq_ok_iff.mp h
  obtain ⟨htrim, _⟩ := nonBlank?_eq_some_iff.mp hanswer
  rw [String.toList_ofList] at htrim
  rw [← htrim, tag_mem_scan_trimChars, tag_mem_scan_strip_iff]

/-- The markers of `chatML` are tags. -/
theorem marker?_eq_none_iff_tags {content : String} :
    Chat.ChatML.marker? content = none ↔
      ∀ name ∈ ["|im_start|", "|im_end|"], .tag name.toList ∉ scan content.toList := by
  have hstart : Chat.ChatML.turnStart.toList = tagText "|im_start|" := by decide
  have hend : Chat.ChatML.turnEnd.toList = tagText "|im_end|" := by decide
  simp only [Chat.ChatML.marker?_eq_none_iff, List.forall_mem_cons, List.not_mem_nil,
    false_implies, implies_true, hstart, hend, tag_mem_scan_iff_tagText "|im_start|" rfl rfl,
    tag_mem_scan_iff_tagText "|im_end|" rfl rfl]

/-- **Markup in an answer**: a tag is in it exactly if it is put together from pieces around tags
that are taken out of the reply.  If none is, the answer has no tags.  Sent back as the next turn of
a conversation, it is refused exactly if a marker is put together. -/
theorem markup_of_answer_iff {raw answer : String} {thinking : Option String}
    (h : decode raw = .ok ⟨.text, answer, thinking⟩) :
    let pieces := scan (splitReasoning (unifyBreaks raw.toList)).2
    (∀ name, .tag name ∈ scan answer.toList ↔ PutTogether name pieces) ∧
    (tags answer.toList = [] ↔ ∀ name, ¬ PutTogether name pieces) ∧
    ∀ turns tools openReply, (∃ text, Chat.ChatML.render turns tools openReply = .ok text) →
      ((∃ text, Chat.ChatML.render (turns ++ [⟨.assistant, answer⟩]) tools openReply = .ok text) ↔
        ∀ name ∈ ["|im_start|", "|im_end|"], ¬ PutTogether name.toList pieces) := by
  intro pieces
  have htags : ∀ name, .tag name ∈ scan answer.toList ↔ PutTogether name pieces :=
    fun _ => tag_mem_answer_iff h
  refine ⟨htags, ?_, ?_⟩
  · simp only [tags_eq_nil_iff, htags]
  · intro turns tools openReply hturns
    obtain ⟨_, hmarked⟩ := Chat.ChatML.exists_render_iff.mp hturns
    have hanswer : Chat.ChatML.marker? answer = none ↔
        ∀ name ∈ ["|im_start|", "|im_end|"], ¬ PutTogether name.toList pieces := by
      simp only [marker?_eq_none_iff_tags, htags]
    rw [Chat.ChatML.exists_render_iff, List.forall_mem_append, List.forall_mem_singleton, hanswer]
    exact ⟨fun hwhole => hwhole.2.2, fun hno => ⟨by simp, hmarked, hno⟩⟩

/-- An answer with emphasis in it, whose tags go without a trace. -/
theorem markup_of_emphasis :
    decode "Use <b>sgdisk</b> here.<|im_end|>\n" = .ok ⟨.text, "Use sgdisk here.", none⟩ ∧
      ∀ name, ¬ PutTogether name
        (scan (splitReasoning (unifyBreaks "Use <b>sgdisk</b> here.<|im_end|>\n".toList)).2) := by
  have hanswer : decode "Use <b>sgdisk</b> here.<|im_end|>\n" =
      .ok ⟨.text, "Use sgdisk here.", none⟩ := by decide +kernel
  exact ⟨hanswer, (markup_of_answer_iff hanswer).2.1.mp (by decide +kernel)⟩

/-- An answer that ends in a marker, which stands nowhere in the reply: a conversation that it is
sent back in cannot be rendered. -/
theorem answer_refused_as_turn :
    decode "Hi <|im_<b>end|>" = .ok ⟨.text, "Hi <|im_end|>", none⟩ ∧
      tags "Hi <|im_end|>".toList ≠ [] ∧
      Chat.ChatML.render [⟨.user, "Hello!"⟩, ⟨.assistant, "Hi <|im_end|>"⟩] [] true =
        .error (.reservedMarker 1 .assistant "<|im_end|>") := by
  decide +kernel

end Reply

end InstallAssistant
