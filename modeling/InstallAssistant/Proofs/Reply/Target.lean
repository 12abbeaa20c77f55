import InstallAssistant.Proofs.Action
import InstallAssistant.Proofs.Reply.Overlap

/-!
# InstallAssistant.Proofs.Reply.Target

Targets and the decoder.  The text that a model is trained to produce for an
action is decoded as the action exactly when the action is free of the
delimiters that it is written between (`decode_target_eq_ok_iff`).
-/

namespace InstallAssistant

open Markup
open Reply

/-! ## delimiters -/

/-- The names of the tags that the scanner reports for a text. -/
def Markup.tagNames (s : String) : List (List Char) := (tags s.toList).map Tag.name

theorem Markup.mem_tagNames {name : List Char} {s : String} :
    name ∈ tagNames s ↔ .tag name ∈ scan s.toList := mem_map_name_tags

theorem Markup.tagNames_eq_nil_iff {s : String} :
    tagNames s = [] ↔ ∀ name, .tag name ∉ scan s.toList := by
  simp only [List.eq_nil_iff_forall_not_mem, mem_tagNames]

theorem Reply.unreasoned_iff {s : String} :
    Unreasoned s.toList ↔ "think".toList ∉ tagNames s ∧ "/think".toList ∉ tagNames s := by
  rw [Unreasoned, mem_tagNames, mem_tagNames]

namespace Action

/-- The parts of an action hold none of the tags that end them, or that would be taken for
reasoning, and no line break that the decoder would change. -/
structure DelimiterFree (a : Action) : Prop where
  thinking : ∀ t ∈ a.thinking,
    "/think".toList ∉ tagNames t ∧ ¬ Text.breakPair <:+: t.toList
  command : a.kind = .command →
    "/tool_call".toList ∉ tagNames a.content ∧
    (∀ name ∈ tagNames a.content, name.head? ≠ some '|') ∧
    (a.thinking = none →
      "think".toList ∉ tagNames a.content ∧ "/think".toList ∉ tagNames a.content)
  text : a.kind = .text →
    tagNames a.content = [] ∧ ¬ Text.breakPair <:+: a.content.toList

/-- Trimmed reasoning does not end in a return. -/
theorem getLast?_ne_return {t : String} (h : Text.nonBlank? t = some t) :
    t.toList.getLast? ≠ some '\r' := by
  intro hlast
  have hblank := (Text.isTrimmed_of_nonBlank? h).1.2 _ hlast
  contradiction

theorem endsNoCall_iff {command : String} :
    EndsNoCall command ↔
      "/tool_call".toList ∉ tagNames command ∧
        ∀ name ∈ tagNames command, name.head? ≠ some '|' := by
  constructor
  · intro h
    constructor
    · intro hin
      exact absurd (h _ (mem_tagNames.mp hin)) (by decide)
    · intro name hin hbar
      have hno := h _ (mem_tagNames.mp hin)
      simp [endsCall, hbar] at hno
  · rintro ⟨hclose, hbar⟩ p hp
    cases p with
    | char c => rfl
    | tag name =>
        have hin : name ∈ tagNames command := mem_tagNames.mpr hp
        have hne : name ≠ "/tool_call".toList := fun heq => hclose (heq ▸ hin)
        rw [endsCall, beq_false_of_ne hne, beq_false_of_ne (hbar name hin)]
        rfl

/-- Without closing brackets and returns there are no delimiters. -/
theorem delimiterFree_of_no_bracket {a : Action}
    (hcontent : '>' ∉ a.content.toList ∧ '\r' ∉ a.content.toList)
    (hthinking : ∀ t ∈ a.thinking, '>' ∉ t.toList ∧ '\r' ∉ t.toList) : a.DelimiterFree := by
  have htags : ∀ s : String, '>' ∉ s.toList → tagNames s = [] :=
    fun s hs => tagNames_eq_nil_iff.mpr (tag_notMem_scan hs)
  have hpair : ∀ s : String, '\r' ∉ s.toList → ¬ Text.breakPair <:+: s.toList :=
    fun s hs hin => hs (hin.subset List.mem_cons_self)
  have hnames := htags _ hcontent.1
  refine ⟨?_, ?_, ?_⟩
  · intro t ht
    obtain ⟨hbracket, hreturn⟩ := hthinking t ht
    rw [htags t hbracket]
    exact ⟨List.not_mem_nil, hpair t hreturn⟩
  · intro _
    simp [hnames]
  · intro _
    exact ⟨hnames, hpair _ hcontent.2⟩

/-! ## target texts -/

/-- The content of an action as it is written behind the reasoning. -/
def contentText (a : Action) : List Char :=
  match a.kind with
  | .command => callBlock a.content
  | .text => a.content.toList

/-- A text with reasoning written before it. -/
def withThinking (thinking : Option String) (s : List Char) : List Char :=
  match thinking with
  | some t => thinkBlock t.toList s
  | none => s

theorem toList_thinkingBlock_append {thinking : Option String}
    (h : ∀ t ∈ thinking, Text.nonBlank? t = some t) (s : List Char) :
    (thinkingBlock thinking).toList ++ s = withThinking thinking s := by
  cases thinking with
  | none => rfl
  | some t =>
      have hopen : "<think>\n".toList = tagText "think" ++ ['\n'] := by decide
      have hclose : "\n</think>\n".toList = '\n' :: (tagText "/think" ++ ['\n']) := by decide
      simp only [thinkingBlock, Option.bind_some, h t rfl, String.toList_append, hopen, hclose,
        withThinking, thinkBlock, List.append_assoc, List.cons_append, List.nil_append]

theorem toList_callBlock (command : String) :
    ("<tool_call>\n" ++ (callJson command).compact ++ "\n</tool_call>").toList =
      callBlock command := by
  have hopen : "<tool_call>\n".toList = tagText "tool_call" ++ ['\n'] := by decide
  have hclose : "\n</tool_call>".toList = '\n' :: tagText "/tool_call" := by decide
  simp only [String.toList_append, Json.compact, String.toList_ofList, print_callJson, hopen,
    hclose, callBlock, List.append_assoc, List.cons_append, List.nil_append]

theorem toList_target {a : Action} (h : a.Trimmed) :
    a.target.toList = withThinking a.thinking a.contentText := by
  rw [target, String.toList_append, toList_thinkingBlock_append h.thinking, contentText]
  cases a.kind with
  | command => rw [toList_callBlock]
  | text => rfl

theorem withThinking_append (thinking : Option String) (s y : List Char) :
    withThinking thinking s ++ y = withThinking thinking (s ++ y) := by
  cases thinking with
  | none => rfl
  | some t => simp [withThinking, thinkBlock]

/-! ## targets, and what is read behind them -/

/-- The line break that is left where a block of reasoning was. -/
def breakBehind : Option String → List Char
  | some _ => ['\n']
  | none => []

theorem says_breakBehind {thinking : Option String} {s : List Char} {kind : Kind}
    {content : String} :
    Says (breakBehind thinking ++ s) kind content ↔ Says s kind content := by
  cases thinking with
  | none => rfl
  | some t => exact says_break

/-- **Reasoning comes back**, and what stands behind it is left. -/
theorem splitReasoning_withThinking {thinking : Option String} {s : List Char}
    (htrim : ∀ t ∈ thinking, Text.nonBlank? t = some t)
    (hfree : ∀ t ∈ thinking, "/think".toList ∉ tagNames t ∧ ¬ Text.breakPair <:+: t.toList)
    (hs : thinking = none → Unreasoned s) :
    splitReasoning (Text.unifyBreaks (withThinking thinking s)) =
      (thinking, breakBehind thinking ++ Text.unifyBreaks s) := by
  cases thinking with
  | none => exact splitReasoning_of_unreasoned (hs rfl).unifyBreaks
  | some t =>
      obtain ⟨hclose, hpair⟩ := hfree t rfl
      rw [mem_tagNames] at hclose
      rw [withThinking, unifyBreaks_thinkBlock (getLast?_ne_return (htrim t rfl)),
        Text.unifyBreaks_eq_self_iff.mpr hpair, splitReasoning_thinkBlock hclose,
        reasoning?_toList, htrim t rfl]
      rfl

/-- A reply that holds an action whose parts are free of delimiters is decoded as the action. -/
theorem decode_of_said {a : Action} {raw : String} {s : List Char} (ht : a.Trimmed)
    (hd : a.DelimiterFree) (hraw : raw.toList = withThinking a.thinking s)
    (hs : a.thinking = none → Unreasoned s)
    (hsaid : Says (Text.unifyBreaks s) a.kind a.content) : decode raw = .ok a := by
  rw [decode_eq_ok_iff, hraw, splitReasoning_withThinking ht.thinking hd.thinking hs]
  exact ⟨rfl, says_breakBehind.mpr hsaid⟩

theorem toList_target_append {a : Action} (h : a.Trimmed) (y : String) :
    (a.target ++ y).toList = withThinking a.thinking (a.contentText ++ y.toList) := by
  rw [String.toList_append, toList_target h, withThinking_append]

/-- **A call is decoded**, whatever is written behind it; only a call without reasoning takes
reasoning from there. -/
theorem decode_target_append_of_command {a : Action} {y : String} (ht : a.Trimmed)
    (hd : a.DelimiterFree) (hk : a.kind = .command)
    (hy : a.thinking = none → Unreasoned y.toList) : decode (a.target ++ y) = .ok a := by
  obtain ⟨hclose, hbar, hthink⟩ := hd.command hk
  have hcontent : a.contentText = callBlock a.content := by rw [contentText, hk]
  apply decode_of_said ht hd (toList_target_append ht y)
  · intro hnone
    rw [hcontent]
    exact unreasoned_callBlock_append (unreasoned_iff.mpr (hthink hnone)) (hy hnone)
  · rw [hcontent, hk, unifyBreaks_callBlock_append, says_callBlock_iff]
    exact ⟨endsNoCall_iff.mpr ⟨hclose, hbar⟩, ht.content⟩

/-- A text that adds nothing to the answer before it: its tags are none that the decoder looks for,
and without them it is blank. -/
structure Silent (e : List Char) : Prop where
  fresh : Fresh e
  unreasoned : Unreasoned e
  calls : .tag "tool_call".toList ∉ scan e
  breaks : '\r' ∉ e
  blank : ∀ c ∈ strip (scan e), Text.isBlank c = true

/-- **An answer is decoded**, with a silent text behind it. -/
theorem decode_target_append_of_text {a : Action} {e : String} (ht : a.Trimmed)
    (hd : a.DelimiterFree) (hk : a.kind = .text) (he : Silent e.toList) :
    decode (a.target ++ e) = .ok a := by
  obtain ⟨htags, hpair⟩ := hd.text hk
  rw [tagNames_eq_nil_iff] at htags
  have hcontent : a.contentText = a.content.toList := by rw [contentText, hk]
  have hscan : scan (a.contentText ++ e.toList) = scan a.content.toList ++ scan e.toList := by
    rw [hcontent, scan_append (.inr he.fresh)]
  have hbreaks : Text.unifyBreaks (a.contentText ++ e.toList) = a.content.toList ++ e.toList := by
    rw [hcontent, Text.unifyBreaks_append (.inl (getLast?_ne_return ht.content)),
      Text.unifyBreaks_eq_self_iff.mpr hpair, Text.unifyBreaks_of_not_mem he.breaks]
  apply decode_of_said ht hd (toList_target_append ht e)
  · intro _
    rw [Unreasoned, hscan, List.mem_append, List.mem_append, not_or, not_or]
    exact ⟨⟨htags _, he.unreasoned.1⟩, ⟨htags _, he.unreasoned.2⟩⟩
  · have hkept : Text.nonBlank? (String.ofList a.content.toList) = some a.content := by
      rw [String.ofList_toList]
      exact ht.content
    rw [hbreaks, hk]
    exact says_text hkept htags he.fresh he.calls he.blank

theorem decode_target_append {a : Action} {e : String} (ht : a.Trimmed) (hd : a.DelimiterFree)
    (he : Silent e.toList) : decode (a.target ++ e) = .ok a := by
  cases hk : a.kind with
  | command => exact decode_target_append_of_command ht hd hk fun _ => he.unreasoned
  | text => exact decode_target_append_of_text ht hd hk he

theorem silent_nil : Silent [] := by
  have hscan : ∀ name, .tag name ∉ scan [] := by simp
  exact ⟨by simp [Fresh], ⟨hscan _, hscan _⟩, hscan _, by simp, by simp [strip]⟩

/-! ## from decoded targets to delimiters -/

/-- Reasoning that comes back as it was neither closes its block nor has a break that is changed. -/
theorem thinking_of_splitReasoning {t : String} {s : List Char} (ht : Text.nonBlank? t = some t)
    (h : (splitReasoning (Text.unifyBreaks (withThinking (some t) s))).1 = some t) :
    "/think".toList ∉ tagNames t ∧ ¬ Text.breakPair <:+: t.toList := by
  have hle := Text.length_unifyBreaks_le t.toList
  rw [withThinking, unifyBreaks_thinkBlock (getLast?_ne_return ht)] at h
  have hclose := not_closes_of_splitReasoning h hle
  have hkept : reasoning? (Text.unifyBreaks t.toList) = some t := by
    simpa only [splitReasoning_thinkBlock hclose] using h
  have htrim := Text.length_trimChars_le (Text.unifyBreaks t.toList)
  rw [(reasoning?_eq_some_iff.mp hkept).1] at htrim
  have hself := Text.unifyBreaks_of_length_le htrim
  rw [hself] at hclose
  exact ⟨fun hin => hclose (mem_tagNames.mp hin), Text.unifyBreaks_eq_self_iff.mp hself⟩

/-- An answer that comes back as it was, and without reasoning, was the whole reply. -/
theorem splitReasoning_snd_of_said {t : String}
    (h : Says (splitReasoning (Text.unifyBreaks t.toList)).2 .text t) :
    (splitReasoning (Text.unifyBreaks t.toList)).2 = Text.unifyBreaks t.toList := by
  have hle := Text.length_unifyBreaks_le t.toList
  rcases splitReasoning_snd (Text.unifyBreaks t.toList) with heq | hlt
  · exact heq
  · have := h.length_le.1
    omega

theorem text_of_said {t : String} (h : Says (Text.unifyBreaks t.toList) .text t) :
    tagNames t = [] ∧ ¬ Text.breakPair <:+: t.toList := by
  have hself := Text.unifyBreaks_of_length_le h.length_le.1
  rw [hself] at h
  exact ⟨tagNames_eq_nil_iff.mpr (h.length_le.2 rfl), Text.unifyBreaks_eq_self_iff.mp hself⟩

theorem command_of_said {command : String}
    (h : Says (Text.unifyBreaks (callBlock command)) .command command) :
    "/tool_call".toList ∉ tagNames command ∧
      ∀ name ∈ tagNames command, name.head? ≠ some '|' := by
  rw [← List.append_nil (callBlock command), unifyBreaks_callBlock_append, says_callBlock_iff] at h
  exact endsNoCall_iff.mp h.1

/-- What an action whose target is decoded as it was says, where its reasoning is known to come
back. -/
theorem delimiterFree_of_said {a : Action}
    (hthinking : ∀ t ∈ a.thinking, "/think".toList ∉ tagNames t ∧ ¬ Text.breakPair <:+: t.toList)
    (hreason : a.kind = .command → a.thinking = none → Unreasoned a.content.toList)
    (h : Says (Text.unifyBreaks a.contentText) a.kind a.content) : a.DelimiterFree := by
  refine ⟨hthinking, ?_, ?_⟩
  · intro hk
    rw [contentText, hk] at h
    obtain ⟨hclose, hbar⟩ := command_of_said h
    exact ⟨hclose, hbar, fun hnone => unreasoned_iff.mp (hreason hk hnone)⟩
  · intro hk
    rw [contentText, hk] at h
    exact text_of_said h

/-- **Every delimiter matters**: an action whose target is decoded as it was has none. -/
theorem delimiterFree_of_decode_target {a : Action} (ht : a.Trimmed)
    (h : decode a.target = .ok a) : a.DelimiterFree := by
  rw [decode_eq_ok_iff, toList_target ht] at h
  obtain ⟨hthought, hsaid⟩ := h
  cases hthinking : a.thinking with
  | none =>
      have hfree : ∀ t ∈ a.thinking,
          "/think".toList ∉ tagNames t ∧ ¬ Text.breakPair <:+: t.toList := by simp [hthinking]
      rw [hthinking, withThinking] at hthought hsaid
      cases hk : a.kind with
      | command =>
          rw [contentText, hk, unifyBreaks_callBlock] at hthought hsaid
          have hreason := unreasoned_of_said hthought hsaid
          rw [splitReasoning_of_unreasoned (unreasoned_callBlock hreason)] at hsaid
          apply delimiterFree_of_said hfree (fun _ _ => hreason)
          rw [contentText, hk, unifyBreaks_callBlock]
          exact hsaid
      | text =>
          rw [contentText, hk] at hthought hsaid
          rw [splitReasoning_snd_of_said hsaid] at hsaid
          apply delimiterFree_of_said hfree
          · rw [hk]
            intro hno
            contradiction
          · rw [contentText, hk]
            exact hsaid
  | some t =>
      have hfree : ∀ u ∈ a.thinking,
          "/think".toList ∉ tagNames u ∧ ¬ Text.breakPair <:+: u.toList := by
        intro u hu
        have ht := ht.thinking u hu
        rw [Option.mem_def.mp hu] at hthought
        exact thinking_of_splitReasoning ht hthought
      have hsome : a.thinking = none → Unreasoned a.contentText := by simp [hthinking]
      rw [splitReasoning_withThinking ht.thinking hfree hsome, says_breakBehind] at hsaid
      apply delimiterFree_of_said hfree _ hsaid
      simp [hthinking]

/-- **Targets are decoded as the action they are written for, exactly when the action is free of
delimiters.** -/
theorem decode_target_eq_ok_iff {kind : Kind} {content : String} {thinking : Option String}
    {a : Action} (h : make kind content thinking = .ok a) :
    decode a.target = .ok a ↔ a.DelimiterFree := by
  obtain ⟨ht, _⟩ := trimmed_of_make h
  constructor
  · exact delimiterFree_of_decode_target ht
  · intro hd
    have hdecode := decode_target_append (e := "") ht hd silent_nil
    rwa [String.append_empty] at hdecode

theorem decode_target_of_padded :
    make .command " lsblk -f\n" (some "Look at the disks. ") =
        .ok ⟨.command, "lsblk -f", some "Look at the disks."⟩ ∧
      (decode (target ⟨.command, "lsblk -f", some "Look at the disks."⟩) =
          .ok ⟨.command, "lsblk -f", some "Look at the disks."⟩ ↔
        DelimiterFree ⟨.command, "lsblk -f", some "Look at the disks."⟩) := by
  have h : make .command " lsblk -f\n" (some "Look at the disks. ") =
      .ok ⟨.command, "lsblk -f", some "Look at the disks."⟩ := by decide
  exact ⟨h, decode_target_eq_ok_iff h⟩

end Action

end InstallAssistant
