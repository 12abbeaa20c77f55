import InstallAssistant.Proofs.Reply.Content
import InstallAssistant.Proofs.Reply.Reasoning

/-!
# InstallAssistant.Proofs.Reply.Aside

Reasoning is said aside.  What a reply comes to is decided by the text around its
block of reasoning alone:

* replies that leave the same body come to the same, but for their reasoning
  (`decode_map_of_body_eq`);
* the body of a reply with a block is what stands before and behind the block
  (`splitReasoning_blockReply`), and that of a reply which ends within its block
  is what stands before it (`splitReasoning_openReply`);
* so no two texts in a block are told apart by the action that is taken, and no
  call in a block is one that is made (`decode_beside_block`).
-/

namespace InstallAssistant.Reply

open Markup

/-! ## the action without its reasoning -/

/-- What an action does, whatever led to it. -/
def withoutReasoning (a : Action) : Action := { a with thinking := none }

/-- Replies with the same body come to the same action, or fail with the same fault. -/
theorem decode_map_of_body_eq {raw₁ raw₂ : String}
    (h : (splitReasoning (Text.unifyBreaks raw₁.toList)).2 =
      (splitReasoning (Text.unifyBreaks raw₂.toList)).2) :
    (decode raw₁).map withoutReasoning = (decode raw₂).map withoutReasoning := by
  cases hs₁ : splitReasoning (Text.unifyBreaks raw₁.toList) with
  | mk thinking₁ body₁ =>
  cases hs₂ : splitReasoning (Text.unifyBreaks raw₂.toList) with
  | mk thinking₂ body =>
      have hbody : body₁ = body := by simpa [hs₁, hs₂] using h
      subst hbody
      unfold decode
      simp only [hs₁, hs₂]
      cases callPayload? body₁ with
      | some payload =>
          cases hc : command? (String.ofList payload) <;>
            simp [hc, Except.map, withoutReasoning]
      | none =>
          cases Text.nonBlank? (String.ofList (strip (scan body₁))) <;>
            simp [Except.map, withoutReasoning]

/-- A reply with a known body: its action has the reasoning that was taken away, and says what the
body says.  A command is the command of a call in the body. -/
theorem of_decode_of_splitReasoning {raw : String} {thinking : Option String} {body : List Char}
    (h : splitReasoning (Text.unifyBreaks raw.toList) = (thinking, body)) {a : Action}
    (ha : decode raw = .ok a) :
    a.thinking = thinking ∧ Says body a.kind a.content ∧
      (a.kind = .command → .tag "tool_call".toList ∈ scan body) := by
  rw [decode_eq_ok_iff, h] at ha
  obtain ⟨hthinking, hsaid⟩ := ha
  refine ⟨hthinking.symm, hsaid, ?_⟩
  intro hkind
  rw [hkind] at hsaid
  obtain ⟨payload, hpayload, _⟩ := hsaid
  by_contra hno
  rw [callPayload?_eq_none_iff.mpr hno] at hpayload
  contradiction

/-! ## replies with a block -/

/-- A reply with a block of reasoning in it. -/
def blockReply (before thought behind : String) : String :=
  before ++ "<think>" ++ thought ++ "</think>" ++ behind

/-- A reply that ends within its block of reasoning. -/
def openReply (before thought : String) : String := before ++ "<think>" ++ thought

/-- Breaks are unified on both sides of a tag by themselves: no break reaches into it. -/
theorem unifyBreaks_append_tag {name : String} (h : '\r' ∉ name.toList) (x s : List Char) :
    Text.unifyBreaks (x ++ (tagText name ++ s)) =
      Text.unifyBreaks x ++ (tagText name ++ Text.unifyBreaks s) := by
  have hhead : (tagText name ++ s).head? ≠ some '\n' := by simp [tagText, Piece.spell]
  have hlast : (tagText name).getLast? ≠ some '\r' := by
    rw [tagText, Piece.spell, ← List.cons_append, List.getLast?_concat]
    simp
  have htag : '\r' ∉ tagText name := by simp [tagText, Piece.spell, h]
  rw [Text.unifyBreaks_append (.inr hhead), Text.unifyBreaks_append (.inl hlast),
    Text.unifyBreaks_of_not_mem htag]

theorem unifyBreaks_blockReply (p t rest : String) :
    Text.unifyBreaks (blockReply p t rest).toList =
      Text.unifyBreaks p.toList ++ (tagText "think" ++ (Text.unifyBreaks t.toList ++
        (tagText "/think" ++ Text.unifyBreaks rest.toList))) := by
  have hopen : "<think>".toList = tagText "think" := by decide
  have hclose : "</think>".toList = tagText "/think" := by decide
  simp only [blockReply, String.toList_append, hopen, hclose, List.append_assoc]
  rw [unifyBreaks_append_tag (by decide), unifyBreaks_append_tag (by decide)]

theorem unifyBreaks_openReply (p t : String) :
    Text.unifyBreaks (openReply p t).toList =
      Text.unifyBreaks p.toList ++ (tagText "think" ++ Text.unifyBreaks t.toList) := by
  have hopen : "<think>".toList = tagText "think" := by decide
  simp only [openReply, String.toList_append, hopen, List.append_assoc]
  rw [unifyBreaks_append_tag (by decide)]

section

variable {p t : String} (hp : .tag "think".toList ∉ scan p.toList)
  (ht : .tag "/think".toList ∉ scan t.toList)

include hp ht

/-- **The body of a reply with a block** is what stands around the block. -/
theorem splitReasoning_blockReply (rest : String) :
    splitReasoning (Text.unifyBreaks (blockReply p t rest).toList) =
      (reasoning? (Text.unifyBreaks t.toList),
        Text.unifyBreaks p.toList ++ Text.unifyBreaks rest.toList) := by
  rw [unifyBreaks_blockReply]
  exact splitReasoning_append_block (fun hin => hp (tag_mem_scan_of_unifyBreaks hin))
    (fun hin => ht (tag_mem_scan_of_unifyBreaks hin)) _

/-- **The body of a reply that ends within its block** is what stands before it. -/
theorem splitReasoning_openReply :
    splitReasoning (Text.unifyBreaks (openReply p t).toList) =
      (reasoning? (Text.unifyBreaks t.toList), Text.unifyBreaks p.toList) := by
  rw [unifyBreaks_openReply]
  exact splitReasoning_append_open (fun hin => hp (tag_mem_scan_of_unifyBreaks hin))
    (fun hin => ht (tag_mem_scan_of_unifyBreaks hin))

end

/-! ## reasoning is said aside -/

/-- **Reasoning is said aside**: whatever stands in a block, the reply comes to the same action or
fault, and the action says what the text around the block says.  The block is only kept, trimmed and
with its breaks unified.  A command stands in a call outside the block. -/
theorem decode_beside_block {p t₁ t₂ : String} (hp : .tag "think".toList ∉ scan p.toList)
    (h₁ : .tag "/think".toList ∉ scan t₁.toList) (h₂ : .tag "/think".toList ∉ scan t₂.toList)
    (rest : String) :
    ((decode (blockReply p t₁ rest)).map withoutReasoning =
        (decode (blockReply p t₂ rest)).map withoutReasoning ∧
      ∀ a, decode (blockReply p t₁ rest) = .ok a →
        a.thinking = reasoning? (Text.unifyBreaks t₁.toList) ∧
        Says (Text.unifyBreaks p.toList ++ Text.unifyBreaks rest.toList) a.kind a.content ∧
        (a.kind = .command → .tag "tool_call".toList ∈
          scan (Text.unifyBreaks p.toList ++ Text.unifyBreaks rest.toList))) ∧
    ((decode (openReply p t₁)).map withoutReasoning =
        (decode (openReply p t₂)).map withoutReasoning ∧
      ∀ a, decode (openReply p t₁) = .ok a →
        a.thinking = reasoning? (Text.unifyBreaks t₁.toList) ∧
        Says (Text.unifyBreaks p.toList) a.kind a.content ∧
        (a.kind = .command → .tag "tool_call".toList ∈ scan (Text.unifyBreaks p.toList))) := by
  have hblock₁ := splitReasoning_blockReply hp h₁ rest
  have hblock₂ := splitReasoning_blockReply hp h₂ rest
  have hopen₁ := splitReasoning_openReply hp h₁
  have hopen₂ := splitReasoning_openReply hp h₂
  refine ⟨⟨?_, ?_⟩, ?_, ?_⟩
  · exact decode_map_of_body_eq (by rw [hblock₁, hblock₂])
  · intro a ha
    exact of_decode_of_splitReasoning hblock₁ ha
  · exact decode_map_of_body_eq (by rw [hopen₁, hopen₂])
  · intro a ha
    exact of_decode_of_splitReasoning hopen₁ ha

/-- A removal that is only thought about is not run, even where it is written as it would be run:
what is decoded is the text behind the block. -/
theorem kind_of_removal_in_block :
    .tag "think".toList ∉ scan "".toList ∧
      .tag "/think".toList ∉ scan (Action.target ⟨.command, "rm -rf /", none⟩).toList ∧
      (∀ a, decode (blockReply "" (Action.target ⟨.command, "rm -rf /", none⟩) "Hello!") = .ok a →
        a.kind ≠ .command) ∧
      decode (blockReply "" (Action.target ⟨.command, "rm -rf /", none⟩) "Hello!") =
        .ok ⟨.text, "Hello!", some (Action.target ⟨.command, "rm -rf /", none⟩)⟩ := by
  have hempty : ∀ name, .tag name ∉ scan "".toList := tag_notMem_scan (by decide)
  have hthought : .tag "/think".toList ∉
      scan (Action.target ⟨.command, "rm -rf /", none⟩).toList := by
    intro hin
    exact absurd (tag_mem_scan_iff.mp hin).2.2 (by decide +kernel)
  have haside := decode_beside_block (hempty _) hthought (hempty _) "Hello!"
  refine ⟨hempty _, hthought, ?_, by decide +kernel⟩
  intro a ha hkind
  exact tag_notMem_scan (by decide) _ ((haside.1.2 a ha).2.2 hkind)

end InstallAssistant.Reply
