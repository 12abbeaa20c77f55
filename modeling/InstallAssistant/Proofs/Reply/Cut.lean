import InstallAssistant.Proofs.Reply.Target

/-!
# InstallAssistant.Proofs.Reply.Cut

Calls that are cut short, and calls after which the model goes on.  A reply that
begins as the target of a call does, up to any place in the target or behind it,
never stands for another call (`command_of_isPrefix_target_append`): it is no
call, or the call itself, and the call itself as soon as it is there in full.
-/

namespace InstallAssistant.Action

open Markup
open Reply

/-! ## what is there of a target -/

theorem unifyBreaks_of_isPrefix {p s : List Char} (hp : p <+: s) (hs : Text.unifyBreaks s = s) :
    Text.unifyBreaks p = p := by
  rw [Text.unifyBreaks_eq_self_iff] at hs ⊢
  exact fun hin => hs (hin.trans hp.isInfix)

/-- Nothing in the target of a call is changed by unifying breaks. -/
theorem unifyBreaks_withThinking_callBlock {a : Action} (ht : a.Trimmed) (hd : a.DelimiterFree) :
    Text.unifyBreaks (withThinking a.thinking (callBlock a.content)) =
      withThinking a.thinking (callBlock a.content) := by
  cases hthinking : a.thinking with
  | none => exact unifyBreaks_callBlock a.content
  | some t =>
      have hlast := getLast?_ne_return (ht.thinking t hthinking)
      have hpair := Text.unifyBreaks_eq_self_iff.mpr (hd.thinking t hthinking).2
      rw [withThinking, unifyBreaks_thinkBlock hlast, hpair, unifyBreaks_callBlock]

/-- A body without tags says no command. -/
theorem not_says_command {body : List Char} {command : String}
    (h : ∀ name, .tag name ∉ scan body) : ¬ Says body .command command := by
  rintro ⟨payload, hpayload, _⟩
  rw [callPayload?_eq_none_iff.mpr (h _)] at hpayload
  cases hpayload

/-- What is there of the target of a call, when it says a command, says the one of the call and
keeps all of its reasoning. -/
theorem of_says_of_isPrefix {a : Action} {s : List Char} {c : String} (ht : a.Trimmed)
    (hd : a.DelimiterFree) (hk : a.kind = .command)
    (hs : s <+: withThinking a.thinking (callBlock a.content))
    (hsaid : Says (splitReasoning s).2 .command c) :
    (splitReasoning s).1 = a.thinking ∧ c = a.content := by
  cases hthinking : a.thinking with
  | none =>
      rw [hthinking] at hs
      have hcontent := unreasoned_iff.mpr ((hd.command hk).2.2 hthinking)
      have hunreasoned := (unreasoned_callBlock hcontent).of_isInfix hs.isInfix
      rw [splitReasoning_of_unreasoned hunreasoned] at hsaid ⊢
      exact ⟨rfl, hsaid.eq_of_isPrefix ht.content hs⟩
  | some t =>
      rw [hthinking] at hs
      have hclose : .tag "/think".toList ∉ scan t.toList :=
        fun hin => (hd.thinking t hthinking).1 (mem_tagNames.mpr hin)
      rcases splitReasoning_of_isPrefix hclose hs with ⟨v, hv, hsplit⟩ | hno
      · rw [reasoning?_toList, ht.thinking t hthinking] at hsplit
        rw [hsplit] at hsaid ⊢
        exact ⟨rfl, (says_break.mp hsaid).eq_of_isPrefix ht.content hv⟩
      · exact absurd hsaid (not_says_command hno)

/-- **A call that is cut** is no other call. -/
theorem eq_of_decode_cut {a b : Action} {p : String} (ht : a.Trimmed) (hd : a.DelimiterFree)
    (hk : a.kind = .command) (hp : p.toList <+: a.target.toList) (hb : decode p = .ok b)
    (hbk : b.kind = .command) : b = a := by
  have hcontent : a.contentText = callBlock a.content := by rw [contentText, hk]
  rw [toList_target ht, hcontent] at hp
  have hbreaks := unifyBreaks_of_isPrefix hp (unifyBreaks_withThinking_callBlock ht hd)
  rw [decode_eq_ok_iff, hbreaks, hbk] at hb
  obtain ⟨hkept, hsame⟩ := of_says_of_isPrefix ht hd hk hp hb.2
  have hkind : b.kind = a.kind := hbk.trans hk.symm
  have hthinking : b.thinking = a.thinking := hb.1.symm.trans hkept
  calc
    b = ⟨b.kind, b.content, b.thinking⟩ := rfl
    _ = ⟨a.kind, a.content, a.thinking⟩ := by rw [hkind, hsame, hthinking]
    _ = a := rfl

/-- **No other call**: what has been generated of a call, wherever it is cut and however it goes
on, is never decoded as another call, and it is decoded as the call once all of that is there. -/
theorem command_of_isPrefix_target_append {content : String} {thinking : Option String}
    {a : Action} {y p : String} (h : make .command content thinking = .ok a)
    (hd : a.DelimiterFree)
    (hy : a.thinking = none → "think".toList ∉ tagNames y ∧ "/think".toList ∉ tagNames y)
    (hp : p.toList <+: (a.target ++ y).toList) :
    (∀ b, decode p = .ok b → b.kind = .command → b = a) ∧
      (a.target.toList <+: p.toList → decode p = .ok a) := by
  obtain ⟨ht, hk⟩ := trimmed_of_make h
  have hwhole : a.target.toList <+: p.toList → decode p = .ok a := by
    rintro ⟨v, hv⟩
    have hrest : p = a.target ++ String.ofList v := by
      rw [← String.toList_inj, String.toList_append, String.toList_ofList, hv]
    rw [hrest, String.toList_append, String.toList_append, List.prefix_append_right_inj] at hp
    rw [hrest]
    apply decode_target_append_of_command ht hd hk
    intro hnone
    exact (unreasoned_iff.mpr (hy hnone)).of_isInfix hp.isInfix
  refine ⟨?_, hwhole⟩
  intro b hb hbk
  rw [String.toList_append] at hp
  rcases List.prefix_or_prefix_of_prefix hp (List.prefix_append _ _) with hcut | hfull
  · exact eq_of_decode_cut ht hd hk hcut hb hbk
  · rw [hwhole hfull] at hb
    exact (Except.ok.inj hb).symm

/-- A removal that is cut within its path is not decoded as the removal of what the cut path
names. -/
theorem decode_cut_removal_ne :
    decode ("<tool_call>\n\x7b\"name\":\"run_shell_command\"," ++
      "\"arguments\":\x7b\"command\":\"rm -rf /") ≠ .ok ⟨.command, "rm -rf /", none⟩ := by
  have h : make .command "rm -rf /mnt/data" none = .ok ⟨.command, "rm -rf /mnt/data", none⟩ := by
    decide
  have hd : DelimiterFree ⟨.command, "rm -rf /mnt/data", none⟩ :=
    delimiterFree_of_no_bracket (by decide) (by decide)
  have htags : tagNames "\nDone." = [] := tagNames_eq_nil_iff.mpr (tag_notMem_scan (by decide))
  intro hcut
  have heq := (command_of_isPrefix_target_append (y := "\nDone.") h hd (by simp [htags])
    (by decide)).1 _ hcut rfl
  exact absurd heq (by decide)

end InstallAssistant.Action
