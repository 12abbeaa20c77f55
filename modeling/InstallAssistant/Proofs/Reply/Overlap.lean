import InstallAssistant.Proofs.Reply.Content
import InstallAssistant.Proofs.Reply.Reasoning

/-!
# InstallAssistant.Proofs.Reply.Overlap

Where a call and reasoning meet.  A call block whose command has no tag of
reasoning is left alone when reasoning is taken away.  If its command has one, the
decoder never returns that command without reasoning: what it takes away is a part
of the command, or all that stands before the tag (`unreasoned_of_said`).
-/

namespace InstallAssistant.Reply

open Markup

/-! ## line breaks in a call -/

theorem return_notMem_escape (s : List Char) : '\r' ∉ Json.escape s := by
  induction s with
  | nil => simp [Json.escape]
  | cons c cs ih =>
      rw [Json.escape_cons, List.mem_append, not_or]
      exact ⟨Json.Token.notMem_escapeChar rfl (by decide) (.inr (by decide)), ih⟩

theorem unifyBreaks_callBlock_append (command : String) (s : List Char) :
    Text.unifyBreaks (callBlock command ++ s) = callBlock command ++ Text.unifyBreaks s := by
  have hreturn : '\r' ∉ callBlock command := by
    have hopen : '\r' ∉ tagText "tool_call" ++ '\n' :: callHead := by decide
    have hclose : '\r' ∉ callTail ++ '\n' :: tagText "/tool_call" := by decide
    have hescape := return_notMem_escape command.toList
    rw [callBlock, callText_eq]
    simp only [List.mem_append, List.mem_cons] at hopen hclose ⊢
    tauto
  have hlast : (callBlock command).getLast? ≠ some '\r' :=
    fun h => hreturn (List.mem_of_getLast? h)
  rw [Text.unifyBreaks_append (.inl hlast), Text.unifyBreaks_of_not_mem hreturn]

theorem unifyBreaks_callBlock (command : String) :
    Text.unifyBreaks (callBlock command) = callBlock command := by
  have h := unifyBreaks_callBlock_append command []
  rwa [List.append_nil, Text.unifyBreaks, List.append_nil] at h

/-! ## tags of reasoning in a call -/

theorem unreasoned_callBlock_append {command : String} {s : List Char}
    (hcommand : Unreasoned command.toList) (hs : Unreasoned s) :
    Unreasoned (callBlock command ++ s) := by
  have hmem : ∀ name, name ≠ "tool_call".toList → name ≠ "/tool_call".toList →
      .tag name ∉ scan command.toList → .tag name ∉ scan s →
      .tag name ∉ scan (callBlock command ++ s) := by
    intro name hopen hclose hin hin'
    rw [scan_callBlock_append]
    simp only [List.mem_cons, List.mem_append, tag_mem_callPieces, Piece.tag.injEq, reduceCtorEq,
      false_or, not_or]
    exact ⟨hopen, hin, hclose, hin'⟩
  exact ⟨hmem _ (by decide) (by decide) hcommand.1 hs.1,
    hmem _ (by decide) (by decide) hcommand.2 hs.2⟩

theorem unreasoned_callBlock {command : String} (h : Unreasoned command.toList) :
    Unreasoned (callBlock command) := by
  have hnil : Unreasoned [] := by simp [Unreasoned]
  have hblock := unreasoned_callBlock_append h hnil
  rwa [List.append_nil] at hblock

/-- The pieces of a call block before its command. -/
def frontPieces : List Piece := .tag "tool_call".toList :: .char '\n' :: callHead.map .char

/-- The pieces of a call block behind its command. -/
def backPieces : List Piece :=
  callTail.map .char ++ [.char '\n', .tag "/tool_call".toList]

theorem scan_callBlock (command : String) :
    scan (callBlock command) =
      frontPieces ++ ((scan command.toList).flatMap escapePiece ++ backPieces) := by
  have h := scan_callBlock_append command []
  rw [List.append_nil, scan_nil] at h
  rw [h, callPieces, frontPieces, backPieces]
  simp only [List.append_assoc, List.cons_append]

theorem tag_notMem_frontPieces {name : List Char} (h : name ≠ "tool_call".toList) :
    .tag name ∉ frontPieces := by
  simp only [frontPieces, List.mem_cons, Piece.tag.injEq, h, reduceCtorEq, false_or,
    List.mem_map, and_false, exists_false, not_false_eq_true]

theorem tag_notMem_backPieces {name : List Char} (h : name ≠ "/tool_call".toList) :
    .tag name ∉ backPieces := by
  simp only [backPieces, List.mem_append, List.mem_map, List.mem_cons, Piece.tag.injEq, h,
    reduceCtorEq, and_false, exists_false, List.not_mem_nil, or_false, not_false_eq_true]

/-- The pieces of a shorter command, put into a call block, spell the block of that command. -/
theorem spell_frontPieces_append {ps : List Piece}
    (h : ∀ name, .tag name ∈ ps → ∀ c ∈ name, isTagChar c = true) :
    spell (frontPieces ++ ps.flatMap escapePiece) =
        tagText "tool_call" ++ '\n' :: (callHead ++ Json.escape (spell ps)) ∧
      spell (frontPieces ++ (ps.flatMap escapePiece ++ backPieces)) =
        callBlock (String.ofList (spell ps)) := by
  have hfront : spell frontPieces = tagText "tool_call" ++ '\n' :: callHead := by
    rw [frontPieces, spell_cons, spell_cons, spell_map_char]
    rfl
  have hback : spell backPieces = callTail ++ '\n' :: tagText "/tool_call" := by
    rw [backPieces, spell_append, spell_map_char]
    rfl
  constructor
  · rw [spell_append, hfront, spell_flatMap_escapePiece h, List.append_assoc, List.cons_append]
  · rw [spell_append, spell_append, hfront, hback, spell_flatMap_escapePiece h, callBlock,
      callText_eq, String.toList_ofList]
    simp only [List.append_assoc, List.cons_append]

/-- The parts of pieces that are cut, as parts of what is put into a call block. -/
theorem cutAt?_escaped {name : String} {ps front rest : List Piece}
    (h : cutAt? name ps = some (front, rest)) (qs : List Piece) :
    cutAt? name (ps.flatMap escapePiece ++ qs) =
      some (front.flatMap escapePiece, rest.flatMap escapePiece ++ qs) := by
  obtain ⟨rfl, hfront⟩ := cutAt?_eq_some_iff.mp h
  rw [cutAt?_eq_some_iff, tag_mem_flatMap_escapePiece]
  refine ⟨?_, hfront⟩
  simp only [List.flatMap_append, List.flatMap_cons, escapePiece, List.append_assoc,
    List.cons_append, List.nil_append]

theorem cutAt?_append_of_notMem {name : String} {ps qs front rest : List Piece}
    (hps : .tag name.toList ∉ ps) (h : cutAt? name qs = some (front, rest)) :
    cutAt? name (ps ++ qs) = some (ps ++ front, rest) := by
  obtain ⟨rfl, hfront⟩ := cutAt?_eq_some_iff.mp h
  rw [cutAt?_eq_some_iff, List.append_assoc, List.mem_append, not_or]
  exact ⟨rfl, hps, hfront⟩

/-- A block of reasoning that begins within a command is taken out of the command, or reaches to
the end of the call. -/
theorem splitReasoning_callBlock_of_open {command : String} {front rest : List Piece}
    (hcut : cutAt? "think" (scan command.toList) = some (front, rest)) :
    (splitReasoning (callBlock command)).2 =
        tagText "tool_call" ++ '\n' :: (callHead ++ Json.escape (spell front)) ∨
      ∃ left, left.toList.length < command.toList.length ∧
        (splitReasoning (callBlock command)).2 = callBlock left := by
  have hscan := (cutAt?_eq_some_iff.mp hcut).1
  have htags : ∀ name, .tag name ∈ scan command.toList → ∀ c ∈ name, isTagChar c = true :=
    fun name hin => (tag_mem_scan_iff.mp hin).2.1
  have hopen : .tag "think".toList ∉ frontPieces := tag_notMem_frontPieces (by decide)
  have hcutBlock := cutAt?_append_of_notMem hopen (cutAt?_escaped hcut backPieces)
  rw [← scan_callBlock] at hcutBlock
  cases hclose : cutAt? "/think" rest with
  | none =>
      left
      have hnone : cutAt? "/think" (rest.flatMap escapePiece ++ backPieces) = none := by
        rw [cutAt?_eq_none_iff, List.mem_append, tag_mem_flatMap_escapePiece, not_or]
        exact ⟨cutAt?_eq_none_iff.mp hclose, tag_notMem_backPieces (by decide)⟩
      have htagsFront : ∀ name, .tag name ∈ front → ∀ c ∈ name, isTagChar c = true := by
        intro name hin
        exact htags name (by rw [hscan]; simp [hin])
      simp only [splitReasoning, hcutBlock, hnone, (spell_frontPieces_append htagsFront).1]
  | some p =>
      right
      obtain ⟨inside, behind⟩ := p
      have hrest := (cutAt?_eq_some_iff.mp hclose).1
      have htagsLeft : ∀ name, .tag name ∈ front ++ behind → ∀ c ∈ name, isTagChar c = true := by
        intro name hin
        refine htags name ?_
        rw [hscan, hrest]
        rcases List.mem_append.mp hin with hin | hin <;> simp [hin]
      refine ⟨String.ofList (spell (front ++ behind)), ?_, ?_⟩
      · have hlen := congrArg (fun ps => (spell ps).length) hscan
        simp only [spell_scan, hrest, spell_append, spell_cons, Piece.spell, List.length_append,
          List.length_cons] at hlen
        rw [String.toList_ofList, spell_append, List.length_append]
        omega
      · simp only [splitReasoning, hcutBlock, cutAt?_escaped hclose]
        rw [← (spell_frontPieces_append htagsLeft).2, ← spell_append, List.flatMap_append]
        simp only [List.append_assoc]

/-- A command that only closes a block of reasoning has all that stands before the tag, the
beginning of the call included, taken for reasoning. -/
theorem splitReasoning_callBlock_of_close {command : String}
    (hopen : .tag "think".toList ∉ scan command.toList)
    (hclose : .tag "/think".toList ∈ scan command.toList) :
    (splitReasoning (callBlock command)).1 ≠ none := by
  obtain ⟨front, rest, hcut⟩ := exists_cutAt? hclose
  have hfront : .tag "/think".toList ∉ frontPieces := tag_notMem_frontPieces (by decide)
  have hcutBlock := cutAt?_append_of_notMem hfront (cutAt?_escaped hcut backPieces)
  have hnone : cutAt? "think" (scan (callBlock command)) = none := by
    rw [cutAt?_eq_none_iff, scan_callBlock, List.mem_append, List.mem_append,
      tag_mem_flatMap_escapePiece, not_or, not_or]
    exact ⟨tag_notMem_frontPieces (by decide), hopen, tag_notMem_backPieces (by decide)⟩
  rw [← scan_callBlock] at hcutBlock
  intro hthought
  simp only [splitReasoning, hnone, hcutBlock, reasoning?_eq_none_iff] at hthought
  have hblank := Text.isBlank_of_trimChars_eq_nil hthought '<' List.mem_cons_self
  contradiction

/-- **Reasoning within a command** is always noticed: a command that comes back as it was, and
without reasoning, has no tag of reasoning. -/
theorem unreasoned_of_said {command : String}
    (hthought : (splitReasoning (callBlock command)).1 = none)
    (hsaid : Says (splitReasoning (callBlock command)).2 .command command) :
    Unreasoned command.toList := by
  have hopen : .tag "think".toList ∉ scan command.toList := by
    intro hin
    obtain ⟨front, rest, hcut⟩ := exists_cutAt? hin
    rcases splitReasoning_callBlock_of_open hcut with hbody | ⟨left, hlen, hbody⟩
    · rw [hbody, ← String.toList_ofList (l := spell front)] at hsaid
      exact not_says_callHead hsaid
    · rw [hbody, ← List.append_nil (callBlock left), says_callBlock_iff] at hsaid
      have htrim := (Text.nonBlank?_eq_some_iff.mp hsaid.2).1
      have hle := Text.length_trimChars_le left.toList
      rw [htrim] at hle
      omega
  refine ⟨hopen, ?_⟩
  intro hin
  exact splitReasoning_callBlock_of_close hopen hin hthought

end InstallAssistant.Reply
