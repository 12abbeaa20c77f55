import InstallAssistant.Chat.Template
import InstallAssistant.Proofs.Text

/-!
# InstallAssistant.Proofs.Chat.Template

What `chatML` makes of a conversation and one more turn: tools stay where they
were (`placeTools_append`), so the text with an assistant turn at its end begins
with the text that asks for that turn (`render_append_reply`), which itself ends
with the end of a turn and the head of the reply (`exists_prompt_eq`).  The one can be
rendered if the other can, and if the reply holds no marker
(`render_append_reply_eq_ok_iff`).
-/

namespace InstallAssistant.Chat.ChatML

/-! ## tools -/

/-- The tools go into the first turn or before it. -/
theorem exists_placeTools_cons (tools : List Json) (t : Turn) :
    ∃ front ≠ [], ∀ ts, placeTools tools (t :: ts) = front ++ ts := by
  obtain ⟨role, content⟩ := t
  unfold placeTools
  by_cases htools : tools.isEmpty = true
  · simp only [if_pos htools]
    exact ⟨[⟨role, content⟩], List.cons_ne_nil _ _, fun _ => rfl⟩
  · simp only [if_neg htools]
    cases role with
    | system => exact ⟨[⟨.system, _⟩], List.cons_ne_nil _ _, fun _ => rfl⟩
    | user => exact ⟨[⟨.system, _⟩, ⟨.user, content⟩], List.cons_ne_nil _ _, fun _ => rfl⟩
    | assistant =>
        exact ⟨[⟨.system, _⟩, ⟨.assistant, content⟩], List.cons_ne_nil _ _, fun _ => rfl⟩

/-- Turns behind the first one do not change where the tools go. -/
theorem placeTools_append (tools : List Json) {turns : List Turn} (h : turns ≠ [])
    (more : List Turn) : placeTools tools (turns ++ more) = placeTools tools turns ++ more := by
  obtain ⟨t, ts, rfl⟩ := List.exists_cons_of_ne_nil h
  obtain ⟨front, _, hfront⟩ := exists_placeTools_cons tools t
  rw [List.cons_append, hfront, hfront, List.append_assoc]

theorem placeTools_ne_nil (tools : List Json) {turns : List Turn} (h : turns ≠ []) :
    placeTools tools turns ≠ [] := by
  obtain ⟨t, ts, rfl⟩ := List.exists_cons_of_ne_nil h
  obtain ⟨front, hne, hfront⟩ := exists_placeTools_cons tools t
  rw [hfront]
  exact List.append_ne_nil_of_left_ne_nil hne ts

/-! ## markers -/

theorem marker?_eq_none_iff {content : String} :
    marker? content = none ↔
      ∀ marker ∈ [turnStart, turnEnd], ¬ marker.toList <:+: content.toList := by
  simp only [marker?, List.find?_eq_none, Bool.not_eq_true, Text.contains_eq_false_iff]

/-- A content without an opening bracket holds no marker. -/
theorem marker?_eq_none {content : String} (h : '<' ∉ content.toList) : marker? content = none := by
  have hbracket : ∀ marker ∈ [turnStart, turnEnd], '<' ∈ marker.toList := by decide
  rw [marker?_eq_none_iff]
  exact fun marker hmarker hin => h (hin.subset (hbracket marker hmarker))

theorem markedTurn?_eq_none_iff {i : Nat} {turns : List Turn} :
    markedTurn? i turns = none ↔ ∀ t ∈ turns, marker? t.content = none := by
  induction turns generalizing i with
  | nil => simp [markedTurn?]
  | cons t ts ih =>
      rw [markedTurn?]
      cases hmarker : marker? t.content with
      | some marker => simp [hmarker]
      | none => simp [hmarker, ih]

/-! ## rendering -/

theorem render_eq_ok_iff {turns : List Turn} {tools : List Json} {openReply : Bool}
    {text : String} :
    render turns tools openReply = .ok text ↔
      turns ≠ [] ∧ markedTurn? 0 turns = none ∧
        text = String.join ((placeTools tools turns).map renderTurn) ++
          if openReply then replyHead else "" := by
  unfold render
  cases turns with
  | nil => simp
  | cons t ts =>
      cases hmark : markedTurn? 0 (t :: ts) with
      | some fault => simp
      | none => simp [eq_comm]

/-- Turns without markers can be rendered, with any tools. -/
theorem exists_render_iff {turns : List Turn} {tools : List Json} {openReply : Bool} :
    (∃ text, render turns tools openReply = .ok text) ↔
      turns ≠ [] ∧ ∀ t ∈ turns, marker? t.content = none := by
  simp [render_eq_ok_iff, markedTurn?_eq_none_iff]

/-- A prompt ends with the end of a turn and the head of the reply. -/
theorem exists_prompt_eq {turns : List Turn} {tools : List Json} {prompt : String}
    (h : render turns tools true = .ok prompt) :
    ∃ before, prompt = before ++ turnEnd ++ ("\n" ++ replyHead) := by
  obtain ⟨hne, _, hprompt⟩ := render_eq_ok_iff.mp h
  obtain ⟨front, t, hlast⟩ :=
    (List.eq_nil_or_concat _).resolve_left (placeTools_ne_nil tools hne)
  refine ⟨String.join (front.map renderTurn) ++ (turnStart ++ t.role.name ++ "\n" ++ t.content), ?_⟩
  rw [hprompt, hlast, List.concat_eq_append, List.map_append, List.map_singleton,
    String.join_append, String.join_cons, String.join_nil, String.append_empty, renderTurn]
  simp only [if_true, String.append_assoc]

/-- **The whole text begins with the prompt**: behind that stand the reply and the end of its
turn. -/
theorem render_append_reply {turns : List Turn} {tools : List Json} {reply prompt full : String}
    (hprompt : render turns tools true = .ok prompt)
    (hfull : render (turns ++ [⟨.assistant, reply⟩]) tools false = .ok full) :
    full = prompt ++ (reply ++ (turnEnd ++ "\n")) := by
  obtain ⟨hne, _, hp⟩ := render_eq_ok_iff.mp hprompt
  obtain ⟨_, _, hf⟩ := render_eq_ok_iff.mp hfull
  have hturn : renderTurn ⟨.assistant, reply⟩ = replyHead ++ (reply ++ (turnEnd ++ "\n")) := by
    simp only [renderTurn, replyHead, String.append_assoc]
  rw [placeTools_append tools hne, List.map_append, List.map_singleton, String.join_append,
    String.join_cons, String.join_nil, String.append_empty, hturn] at hf
  rw [hf, hp]
  simp only [if_true, Bool.false_eq_true, if_false, String.append_empty, String.append_assoc]

/-- **When the whole text can be rendered**: a reply without markers goes on behind any prompt. -/
theorem render_append_reply_eq_ok_iff {turns : List Turn} (h : turns ≠ []) {tools : List Json}
    {reply full : String} :
    render (turns ++ [⟨.assistant, reply⟩]) tools false = .ok full ↔
      marker? reply = none ∧ ∃ prompt, render turns tools true = .ok prompt ∧
        full = prompt ++ (reply ++ (turnEnd ++ "\n")) := by
  constructor
  · intro hfull
    obtain ⟨_, hmarked⟩ := exists_render_iff.mp ⟨full, hfull⟩
    obtain ⟨hturns, hreply⟩ := List.forall_mem_append.mp hmarked
    obtain ⟨prompt, hprompt⟩ := exists_render_iff.mpr ⟨h, hturns⟩
    exact ⟨hreply _ List.mem_cons_self, prompt, hprompt, render_append_reply hprompt hfull⟩
  · intro ⟨hreply, prompt, hprompt, htext⟩
    obtain ⟨_, hturns⟩ := exists_render_iff.mp ⟨prompt, hprompt⟩
    have hmarked : ∀ t ∈ turns ++ [⟨.assistant, reply⟩], marker? t.content = none :=
      List.forall_mem_append.mpr ⟨hturns, List.forall_mem_singleton.mpr hreply⟩
    obtain ⟨full', hfull⟩ := exists_render_iff.mpr ⟨by simp, hmarked⟩
    rw [htext, ← render_append_reply hprompt hfull]
    exact hfull

end InstallAssistant.Chat.ChatML
