import InstallAssistant.Proofs.Reply.Call

/-!
# InstallAssistant.Proofs.Reply.Content

What a reply says behind its reasoning.  `Says body kind content` is the relation
between the text that is left and the content of the action it stands for; the
decoder computes exactly it (`decode_eq_ok_iff`).

* a call block says its command, and nothing else (`says_callBlock_iff`), and no
  beginning of it says another (`Says.eq_of_isPrefix`);
* a text without tags says itself (`says_text`), and a text never says more than
  it holds (`Says.length_le`).
-/

namespace InstallAssistant.Reply

open Markup

/-! ## what the decoder computes -/

/-- The content that the body of a reply stands for. -/
def Says (body : List Char) : Action.Kind → String → Prop
  | .command, command =>
    ∃ payload, callPayload? body = some payload ∧ command? (String.ofList payload) = .ok command
  | .text, answer =>
    callPayload? body = none ∧ Text.nonBlank? (String.ofList (strip (scan body))) = some answer

/-- **The decoder**: it takes the reasoning away, and returns what the rest says. -/
theorem decode_eq_ok_iff {raw : String} {a : Action} :
    decode raw = .ok a ↔
      (splitReasoning (Text.unifyBreaks raw.toList)).1 = a.thinking ∧
        Says (splitReasoning (Text.unifyBreaks raw.toList)).2 a.kind a.content := by
  obtain ⟨kind, content, thinking⟩ := a
  cases hs : splitReasoning (Text.unifyBreaks raw.toList) with
  | mk thought body =>
      cases hp : callPayload? body with
      | some payload =>
          cases hc : command? (String.ofList payload) with
          | ok command => cases kind <;> simp [decode, hs, hp, hc, Says, and_comm, eq_comm]
          | error fault => cases kind <;> simp [decode, hs, hp, hc, Says]
      | none =>
          cases ha : Text.nonBlank? (String.ofList (strip (scan body))) with
          | some answer => cases kind <;> simp [decode, hs, hp, ha, Says, and_comm, eq_comm]
          | none => cases kind <;> simp [decode, hs, hp, ha, Says]

/-- A line break before the body, which is left behind a block of reasoning, says nothing. -/
theorem says_break {s : List Char} {kind : Action.Kind} {content : String} :
    Says ('\n' :: s) kind content ↔ Says s kind content := by
  have hpayload : callPayload? ('\n' :: s) = callPayload? s := callPayload?_char (by decide) s
  cases kind with
  | command => rw [Says, Says, hpayload]
  | text =>
      have hstrip : strip (scan ('\n' :: s)) = '\n' :: strip (scan s) := by
        rw [scan_char (by decide)]
        rfl
      have hblank : ∀ t, Text.nonBlank? (String.ofList ('\n' :: t)) =
          Text.nonBlank? (String.ofList t) := by
        intro t
        rw [Text.nonBlank?, Text.nonBlank?, Text.trim, Text.trim, String.toList_ofList,
          String.toList_ofList, Text.trimChars_cons_blank rfl]
      rw [Says, Says, hpayload, hstrip, hblank]

/-! ## what a call block says -/

/-- **A call block says its command**, whatever follows it, provided that the command does not end
the call before its end does. -/
theorem says_callBlock_iff {command c : String} {s : List Char} :
    Says (callBlock command ++ s) .command c ↔
      EndsNoCall command ∧ Text.nonBlank? command = some c := by
  by_cases h : EndsNoCall command
  · have hpayload := callPayload?_callBlock h s
    have hcommand := command?_callText (trimChars_callText_append command Text.isBlank_break)
    simp only [Says, hpayload, Option.some.injEq, exists_eq_left', hcommand, h, true_and]
    cases Text.nonBlank? command <;> simp
  · obtain ⟨q, hq, hbegins, hne⟩ := exists_callPayload?_cut h s
    simp only [Says, hq, Option.some.injEq, exists_eq_left', command?_cut hbegins hne, h,
      false_and, reduceCtorEq]

/-- **No other command** is said by a beginning of a call block. -/
theorem Says.eq_of_isPrefix {body : List Char} {command c : String}
    (hcommand : Text.nonBlank? command = some command) (hbody : body <+: callBlock command)
    (h : Says body .command c) : c = command := by
  obtain ⟨payload, hpayload, hc⟩ := h
  exact of_isPrefix_callBlock hcommand hbody hpayload hc

/-- A call block that is cut before the end of its command says no command. -/
theorem not_says_callHead {command c : String} :
    ¬ Says (tagText "tool_call" ++ '\n' :: (callHead ++ Json.escape command.toList))
      .command c := by
  rintro ⟨payload, hpayload, hc⟩
  obtain ⟨q, hq, hbegins⟩ := exists_callPayload?_opened (callHead ++ Json.escape command.toList)
  rw [hpayload] at hq
  injection hq with hq
  have hcall : callText command = callHead ++ Json.escape command.toList ++ callTail := by
    rw [callText_eq, List.append_assoc]
  have hne : q ≠ callText command := by
    intro heq
    have hle := hbegins.length_le
    rw [heq, hcall, List.length_append] at hle
    have htail : 0 < callTail.length := by decide
    omega
  rw [hq, command?_cut (hcall ▸ hbegins.trans (List.prefix_append _ _)) hne] at hc
  contradiction

/-! ## what a text says -/

/-- **A text without tags says itself**, before anything that leaves only blanks behind. -/
theorem says_text {s e : List Char} {t : String} (hs : Text.nonBlank? (String.ofList s) = some t)
    (htags : ∀ name, .tag name ∉ scan s) (hfresh : Fresh e)
    (hcall : .tag "tool_call".toList ∉ scan e)
    (hblank : ∀ c ∈ strip (scan e), Text.isBlank c = true) :
    Says (s ++ e) .text t := by
  have hscan : scan (s ++ e) = scan s ++ scan e := scan_append (.inr hfresh)
  constructor
  · rw [callPayload?_eq_none_iff, hscan, List.mem_append, not_or]
    exact ⟨htags _, hcall⟩
  · rw [Text.nonBlank?_eq_some_iff, String.toList_ofList] at hs ⊢
    have htrim := Text.trimChars_append_blank (a := []) (by simp) hblank s
    rw [hscan, strip_append, strip_of_no_tag htags, spell_scan]
    exact ⟨htrim.trans hs.1, hs.2⟩

/-- **A text never says more than it holds**, and says as much only if it has no tags. -/
theorem Says.length_le {body : List Char} {t : String} (h : Says body .text t) :
    t.toList.length ≤ body.length ∧
      (t.toList.length = body.length → ∀ name, .tag name ∉ scan body) := by
  have htrim := (Text.nonBlank?_eq_some_iff.mp h.2).1
  have hle := Text.length_trimChars_le (strip (scan body))
  rw [String.toList_ofList] at htrim
  rw [htrim] at hle
  have hstrip := length_strip_le (scan body)
  rw [spell_scan] at hstrip
  refine ⟨Nat.le_trans hle hstrip, ?_⟩
  intro heq name hin
  have hlt := length_strip_lt hin
  rw [spell_scan] at hlt
  omega

end InstallAssistant.Reply
