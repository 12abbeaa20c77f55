import InstallAssistant.Reply
import InstallAssistant.Proofs.Json.Tree
import InstallAssistant.Proofs.Markup.Escaped
import InstallAssistant.Proofs.Text

/-!
# InstallAssistant.Proofs.Reply.Call

The text of a tool call with a command, and what the decoder makes of it:

* all of it is read as a call with the command (`command?_callText`);
* a proper beginning of it is no call at all (`command?_cut`), nor is a call with
  a bracket behind it (`command?_trailing`);
* between its tags it is found whole, unless the command itself has a tag that
  ends a call; then a proper beginning of it is found (`callPayload?_callBlock`,
  `exists_callPayload?_cut`).
-/

namespace InstallAssistant.Reply

open Markup
open Json.Token (Mark text text_append)

/-! ## the text of a call -/

/-- The marks of a call up to the command. -/
def headMarks : List Mark :=
  [.beginObject, .string "name", .colon, .string Action.shellTool, .comma, .string "arguments",
    .colon, .beginObject, .string "command", .colon]

/-- The marks of a call behind the command. -/
def tailMarks : List Mark := [.endObject, .endObject]

def callMarks (command : String) : List Mark := headMarks ++ .string command :: tailMarks

def callText (command : String) : List Char := text (callMarks command)

theorem print_callJson (command : String) :
    (Action.callJson command).print = callText command := by
  simp only [Action.callJson, Json.print, Json.printMembers, Json.commas, callText, callMarks,
    headMarks, tailMarks, text, List.flatMap_cons, List.flatMap_nil, Mark.text, List.append_assoc,
    List.cons_append, List.nil_append]

/-- The text of a call up to the first character of the command. -/
def callHead : List Char := text headMarks ++ ['\x22']

/-- The text of a call behind the last character of the command. -/
def callTail : List Char := '\x22' :: text tailMarks

theorem callText_eq (command : String) :
    callText command = callHead ++ (Json.escape command.toList ++ callTail) := by
  rw [callText, callMarks, text_append]
  simp [text, Mark.text, Json.quote, callHead, callTail]

theorem bracket_notMem_callHead : '<' ∉ callHead := by decide

theorem bracket_notMem_callTail : '<' ∉ callTail := by decide

theorem callText_ne_nil (command : String) : callText command ≠ [] := by
  rw [callText_eq]
  exact List.cons_ne_nil _ _

theorem getLast?_callText (command : String) : (callText command).getLast? = some '\x7d' := by
  have hclose : callText command = callHead ++ Json.escape command.toList ++ ['\x22', '\x7d'] ++
      ['\x7d'] := by
    rw [callText_eq]
    simp [callTail, text, tailMarks, Mark.text]
  rw [hclose, List.getLast?_concat]

/-- A call begins with a bracket and ends with one, so nothing of it is trimmed. -/
theorem isTrimmed_callText (command : String) : Text.IsTrimmed (callText command) := by
  constructor
  · intro c hc
    rw [callText_eq] at hc
    have hopen : some '\x7b' = some c := hc
    cases hopen
    rfl
  · intro c hc
    rw [getLast?_callText] at hc
    cases hc
    rfl

/-! ## reading a call -/

/-- What the text of a call spells. -/
def callTree (command : String) : Json.Tree :=
  .object [(some "name", .string (some Action.shellTool)),
    (some "arguments", .object [(some "command", .string (some command))])]

theorem ofTokens?_callMarks (command : String) :
    Json.Tree.ofTokens? ((callMarks command).map Mark.token) = some (callTree command) := rfl

theorem reader_callTree (command : String) :
    Call.reader Json.maxDepth (callTree command) =
      some ⟨some Action.shellTool, .object [("command", .string command)]⟩ := rfl

theorem parse?_callText (command : String) :
    Call.reader.parse? (String.ofList (callText command)) =
      some ⟨some Action.shellTool, .object [("command", .string command)]⟩ := by
  rw [Json.Reader.parse?, callText, Json.Tree.parse?_text, ofTokens?_callMarks, Option.bind_some,
    reader_callTree]

/-- **A whole call is read**: its command is what the decoder returns, trimmed. -/
theorem command?_callText {payload : List Char} {command : String}
    (h : Text.trimChars payload = callText command) :
    command? (String.ofList payload) =
      match Text.nonBlank? command with
      | some c => .ok c
      | none => .error .noCommand := by
  have htrim : Text.trim (String.ofList payload) = String.ofList (callText command) := by
    rw [Text.trim, String.toList_ofList, h]
  have hmember : (Json.object [("command", .string command)]).member? "command" =
      some (.string command) := by simp [Json.member?]
  rw [command?, htrim, parse?_callText]
  cases hcommand : Text.nonBlank? command <;>
    simp only [Call.unwrap?, hmember, Option.bind_some, Json.text?, ne_eq, not_true_eq_false,
      if_false, hcommand]

/-- Blanks around a call are trimmed, and nothing of the call is. -/
theorem trimChars_callText_append (command : String) {b : List Char}
    (hb : ∀ c ∈ b, Text.isBlank c = true) :
    Text.trimChars ('\n' :: (callText command ++ b)) = callText command := by
  have happ : '\n' :: (callText command ++ b) = ['\n'] ++ callText command ++ b := rfl
  rw [happ, Text.trimChars_append_blank Text.isBlank_break hb,
    Text.trimChars_of_isTrimmed (isTrimmed_callText command)]

theorem command?_eq_notJson {payload s : List Char} (h : Text.trimChars payload = s)
    (hs : Json.Tree.parse? (String.ofList s) = none) :
    command? (String.ofList payload) = .error .notJson := by
  have htrim : Text.trim (String.ofList payload) = String.ofList s := by
    rw [Text.trim, String.toList_ofList, h]
  rw [command?, htrim, Json.Reader.parse?, hs]
  rfl

/-- **A cut call is no call**, wherever it is cut. -/
theorem command?_cut {q : List Char} {command : String} (hq : q <+: callText command)
    (hne : q ≠ callText command) : command? (String.ofList ('\n' :: q)) = .error .notJson := by
  have htrim : Text.trimChars ('\n' :: q) = Text.trimChars q := Text.trimChars_cons_blank rfl q
  have hhead : ∀ c ∈ q.head?, Text.isBlank c = false := by
    intro c hc
    obtain ⟨rest, hrest⟩ := hq
    apply (isTrimmed_callText command).1
    rw [← hrest, List.head?_append, Option.mem_def.mp hc]
    rfl
  have hbegins := Text.trimChars_isPrefix hhead
  apply command?_eq_notJson htrim
  apply Json.Tree.parse?_cut (ofTokens?_callMarks command) (hbegins.trans hq)
  intro heq
  have hlen := hbegins.length_le
  rw [heq] at hlen
  exact hne (hq.eq_of_length (Nat.le_antisymm hq.length_le hlen))

/-- No token begins with an opening bracket. -/
theorem ofChars?_bracket (s : List Char) : Json.Token.ofChars? ('<' :: s) = none :=
  Json.Token.ofChars?_of_scalar?_eq_none rfl rfl rfl

/-- **A bracket behind a call** is no JSON. -/
theorem command?_trailing {s : List Char} {command : String}
    (hs : ∀ c ∈ s, Text.isBlank c = false) :
    command? (String.ofList ('\n' :: (callText command ++ '\n' :: '<' :: s))) =
      .error .notJson := by
  have htrimmed : Text.IsTrimmed (callText command ++ '\n' :: '<' :: s) := by
    constructor
    · intro c hc
      apply (isTrimmed_callText command).1
      rw [List.head?_append_of_ne_nil _ (callText_ne_nil command)] at hc
      exact hc
    · intro c hc
      have hlast : ('<' :: s).getLast? = some c := by
        rw [List.getLast?_append, List.getLast?_cons_cons] at hc
        rw [List.getLast?_cons] at hc ⊢
        exact hc
      rcases List.mem_cons.mp (List.mem_of_getLast? hlast) with rfl | hin
      · rfl
      · exact hs c hin
  have htrim : Text.trimChars ('\n' :: (callText command ++ '\n' :: '<' :: s)) =
      callText command ++ '\n' :: '<' :: s := by
    rw [Text.trimChars_cons_blank rfl, Text.trimChars_of_isTrimmed htrimmed]
  apply command?_eq_notJson htrim
  rw [Json.Tree.parse?, String.toList_ofList, callText, Json.Token.ofChars?_text_append,
    Json.Token.ofChars?_blank rfl, ofChars?_bracket]
  rfl

/-! ## the tags of a call -/

/-- The pieces of the text of a call. -/
def callPieces (command : String) : List Piece :=
  callHead.map .char ++ ((scan command.toList).flatMap escapePiece ++ callTail.map .char)

theorem closed_callText (command : String) : Closed (callText command) := by
  intro c hc
  rw [getLast?_callText] at hc
  cases hc
  decide

theorem scan_callText (command : String) : scan (callText command) = callPieces command := by
  have hfresh : Fresh callTail := fresh_cons (by decide) _
  rw [callText_eq, scan_chars_append bracket_notMem_callHead, scan_append (.inr hfresh),
    scan_escape, scan_chars bracket_notMem_callTail]
  rfl

theorem scan_callText_append (command : String) (s : List Char) :
    scan (callText command ++ s) = callPieces command ++ scan s := by
  rw [scan_append (.inl (closed_callText command)), scan_callText]

/-- The tags of a call are those of its command. -/
theorem tag_mem_callPieces {command : String} {name : List Char} :
    .tag name ∈ callPieces command ↔ .tag name ∈ scan command.toList := by
  simp only [callPieces, List.mem_append, tag_mem_flatMap_escapePiece]
  simp

/-! ## a call between its tags -/

/-- A call as it is written in a reply. -/
def callBlock (command : String) : List Char :=
  tagText "tool_call" ++ '\n' :: (callText command ++ '\n' :: tagText "/tool_call")

theorem scan_callBlock_append (command : String) (s : List Char) :
    scan (callBlock command ++ s) = .tag "tool_call".toList :: .char '\n' ::
      (callPieces command ++ .char '\n' :: .tag "/tool_call".toList :: scan s) := by
  rw [callBlock, List.append_assoc, scan_tagText_append rfl rfl, List.cons_append,
    scan_char (by decide), List.append_assoc, scan_callText_append, List.cons_append,
    scan_char (by decide), scan_tagText_append rfl rfl]

theorem spell_callPieces (command : String) : spell (callPieces command) = callText command := by
  rw [← scan_callText, spell_scan]

theorem callPayload?_of_cutAt? {body : List Char} {front rest : List Piece}
    (h : cutAt? "tool_call" (scan body) = some (front, rest)) :
    callPayload? body = some (spell (rest.takeWhile fun p => !endsCall p)) := by
  rw [callPayload?, h]
  rfl

theorem callPayload?_eq_none_iff {body : List Char} :
    callPayload? body = none ↔ .tag "tool_call".toList ∉ scan body := by
  rw [callPayload?, Option.map_eq_none_iff, cutAt?_eq_none_iff]

/-- What is found in a body that begins with the opening tag of a call. -/
theorem callPayload?_opened (s : List Char) :
    callPayload? (tagText "tool_call" ++ s) =
      some (spell ((scan s).takeWhile fun p => !endsCall p)) := by
  apply callPayload?_of_cutAt?
  rw [scan_tagText_append rfl rfl]
  exact cutAt?_cons_self _ _

/-- What is found in a call block: the pieces of the call, up to the first that ends it. -/
theorem callPayload?_callBlock_append (command : String) (s : List Char) :
    callPayload? (callBlock command ++ s) =
      some ('\n' :: spell ((callPieces command ++ .char '\n' :: .tag "/tool_call".toList ::
        scan s).takeWhile fun p => !endsCall p)) := by
  have hcut := cutAt?_cons_self "tool_call" (.char '\n' :: (callPieces command ++
    .char '\n' :: .tag "/tool_call".toList :: scan s))
  rw [← scan_callBlock_append] at hcut
  rw [callPayload?_of_cutAt? hcut, List.takeWhile_cons_of_pos rfl]
  rfl

/-! ### whole calls -/

/-- A command that has no tag which ends a call. -/
def EndsNoCall (command : String) : Prop := ∀ p ∈ scan command.toList, endsCall p = false

theorem EndsNoCall.callPieces {command : String} (h : EndsNoCall command) :
    ∀ p ∈ callPieces command, endsCall p = false := by
  intro p hp
  cases p with
  | char c => rfl
  | tag name => exact h _ (tag_mem_callPieces.mp hp)

/-- **A whole call is found**, up to its closing tag and whatever follows that. -/
theorem callPayload?_callBlock {command : String} (h : EndsNoCall command) (s : List Char) :
    callPayload? (callBlock command ++ s) = some ('\n' :: (callText command ++ ['\n'])) := by
  have hpieces : ∀ p ∈ callPieces command, (!endsCall p) = true := by
    intro p hp
    rw [h.callPieces p hp]
    rfl
  have htake : (callPieces command ++ .char '\n' :: .tag "/tool_call".toList ::
      scan s).takeWhile (fun p => !endsCall p) = callPieces command ++ [.char '\n'] := by
    rw [List.takeWhile_append_of_pos hpieces, List.takeWhile_cons_of_pos rfl,
      List.takeWhile_cons_of_neg (by decide)]
  rw [callPayload?_callBlock_append, htake, spell_append, spell_callPieces]
  rfl

/-- **A command that ends its call** cuts the call short: the pieces behind the tag are lost. -/
theorem exists_callPayload?_cut {command : String} (h : ¬ EndsNoCall command) (s : List Char) :
    ∃ q, callPayload? (callBlock command ++ s) = some ('\n' :: q) ∧ q <+: callText command ∧
      q ≠ callText command := by
  obtain ⟨p, hp, he⟩ : ∃ p ∈ callPieces command, (!endsCall p) = false := by
    unfold EndsNoCall at h
    push Not at h
    obtain ⟨p, hp, he⟩ := h
    cases p with
    | char c => contradiction
    | tag name => exact ⟨_, tag_mem_callPieces.mpr hp, by simpa using he⟩
  have hbegins := spell_takeWhile_isPrefix (fun p => !endsCall p) (callPieces command)
  have hlt := length_spell_takeWhile_lt (f := fun p => !endsCall p) hp he
  rw [spell_callPieces] at hbegins hlt
  refine ⟨spell ((callPieces command).takeWhile fun p => !endsCall p), ?_, hbegins, ?_⟩
  · rw [callPayload?_callBlock_append, takeWhile_append_of_neg hp he]
  · intro heq
    rw [heq] at hlt
    exact Nat.lt_irrefl _ hlt

/-! ### cut calls -/

/-- A character that opens no tag does not matter before a call. -/
theorem callPayload?_char {c : Char} (h : c ≠ '<') (s : List Char) :
    callPayload? (c :: s) = callPayload? s := by
  rw [callPayload?, callPayload?, scan_char h, cutAt?, if_neg (by simp), Option.map_map]
  rfl

/-- What is found behind an opening tag is a beginning of what stands there. -/
theorem exists_callPayload?_opened (s : List Char) :
    ∃ q, callPayload? (tagText "tool_call" ++ '\n' :: s) = some ('\n' :: q) ∧ q <+: s := by
  refine ⟨spell ((scan s).takeWhile fun p => !endsCall p), ?_, ?_⟩
  · rw [callPayload?_opened, scan_char (by decide), List.takeWhile_cons_of_pos rfl]
    rfl
  · have h := spell_takeWhile_isPrefix (fun p => !endsCall p) (scan s)
    rwa [spell_scan] at h

/-- **No shorter command**: what is there of a call and its closing tag is read as the command of
the call, or as no call. -/
theorem command?_of_isPrefix {q : List Char} {command c : String}
    (hcommand : Text.nonBlank? command = some command)
    (hq : q <+: callText command ++ '\n' :: tagText "/tool_call")
    (h : command? (String.ofList ('\n' :: q)) = .ok c) : c = command := by
  have hwhole : ∀ b, (∀ d ∈ b, Text.isBlank d = true) → q = callText command ++ b →
      c = command := by
    intro b hb hqb
    rw [hqb, command?_callText (trimChars_callText_append command hb), hcommand] at h
    exact (Except.ok.inj h).symm
  rcases List.prefix_or_prefix_of_prefix hq (List.prefix_append _ _) with hcut | ⟨s, rfl⟩
  · by_cases hne : q = callText command
    · exact hwhole [] (by simp) (by rw [hne, List.append_nil])
    · rw [command?_cut hcut hne] at h
      cases h
  · rw [List.prefix_append_right_inj] at hq
    rcases List.prefix_cons_iff.mp hq with rfl | ⟨w, rfl, hw⟩
    · exact hwhole [] (by simp) rfl
    · rcases List.prefix_cons_iff.mp hw with rfl | ⟨v, rfl, hv⟩
      · exact hwhole ['\n'] Text.isBlank_break rfl
      · have hall : ("/tool_call".toList ++ ['>']).all (fun d => !Text.isBlank d) = true := rfl
        have htag : ∀ d ∈ v, Text.isBlank d = false := by
          intro d hd
          simpa using List.all_eq_true.mp hall d (hv.subset hd)
        rw [command?_trailing htag] at h
        cases h

theorem command?_nil : command? (String.ofList []) = .error .notJson := by
  have hne : [] ≠ callText "" := (callText_ne_nil "").symm
  exact command?_eq_notJson rfl
    (Json.Tree.parse?_cut (ofTokens?_callMarks "") List.nil_prefix hne)

/-- **No other command**: whatever is there of a call block, a call that is found in it is the call
that was written. -/
theorem of_isPrefix_callBlock {body payload : List Char} {command c : String}
    (hcommand : Text.nonBlank? command = some command) (hbody : body <+: callBlock command)
    (hpayload : callPayload? body = some payload)
    (h : command? (String.ofList payload) = .ok c) : c = command := by
  have hopen : callPayload? (tagText "tool_call") = some [] := by
    rw [← List.append_nil (tagText _), callPayload?_opened, scan_nil]
    rfl
  have hempty : payload ≠ [] := by
    rintro rfl
    rw [command?_nil] at h
    cases h
  rcases List.prefix_or_prefix_of_prefix hbody (List.prefix_append _ _) with hcut | ⟨r, rfl⟩
  · by_cases hbody : body = tagText "tool_call"
    · rw [hbody, hopen] at hpayload
      exact absurd (Option.some.inj hpayload).symm hempty
    · -- without the end of the tag there is no tag
      have hnone : callPayload? body = none := by
        apply callPayload?_eq_none_iff.mpr
        intro hin
        have hnil := tag_mem_scan_of_cut (w := []) (by decide) hcut hbody hin
        rw [scan_nil] at hnil
        cases hnil
      rw [hnone] at hpayload
      cases hpayload
  · rw [callBlock, List.prefix_append_right_inj] at hbody
    rcases List.prefix_cons_iff.mp hbody with rfl | ⟨s, rfl, hs⟩
    · rw [List.append_nil, hopen] at hpayload
      exact absurd (Option.some.inj hpayload).symm hempty
    · obtain ⟨q, hq, hqs⟩ := exists_callPayload?_opened s
      rw [hq] at hpayload
      have hq := Option.some.inj hpayload
      subst hq
      exact command?_of_isPrefix hcommand (hqs.trans hs) h

end InstallAssistant.Reply
