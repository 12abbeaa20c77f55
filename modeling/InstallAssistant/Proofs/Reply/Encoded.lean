import InstallAssistant.Reply
import InstallAssistant.Proofs.Json.Value
import InstallAssistant.Proofs.Text

/-!
# InstallAssistant.Proofs.Reply.Encoded

Arguments that are written as a value, and arguments that are written as a text
which holds the value.  A call is spelled with blanks in it and around it
(`spelled`); what it is decoded as depends only on the name of its tool and on the
value of its arguments (`outcome`, `command?_of_unwrap?`).  That value is the same in
both forms, although the text leaves one container more of room (`unwrap?_reread`,
`unwrap?_compact`), so the forms are decoded alike (`command?_encoded`).
-/

namespace InstallAssistant.Reply

open Json (Lexes LexesBefore Token)

/-! ## calls with any arguments -/

/-- A call of a tool. -/
def callOf (name : String) (arguments : Json) : Json :=
  .object [("name", .string name), ("arguments", arguments)]

/-- The text of a call, with the same blanks behind its colons and its comma. -/
def spelled (gap : List Char) (name : String) (arguments : Json) : List Char :=
  '\x7b' :: (Json.quote "name" ++ ':' :: (gap ++ Json.quote name) ++
    ',' :: (gap ++ Json.quote "arguments") ++ ':' :: (gap ++ arguments.print) ++ ['\x7d'])

example : String.ofList (spelled [' '] "date" (.object [("utc", .bool true)])) =
    "\x7b\"name\": \"date\", \"arguments\": \x7b\"utc\":true\x7d\x7d" := by decide

variable {front gap back : List Char} {arguments : Json}

theorem lexes_spelled (hgap : ∀ c ∈ gap, Token.isBlank c = true) (name : String)
    (hfinite : arguments.finite = true) :
    Lexes (spelled gap name arguments) (callOf name arguments).tokens := by
  have hname : Lexes (gap ++ Json.quote name) [.string (some name)] :=
    (Json.lexes_key name).blanks hgap
  have hkey : Lexes (gap ++ Json.quote "arguments") [.string (some "arguments")] :=
    (Json.lexes_key "arguments").blanks hgap
  have hvalue : LexesBefore (gap ++ arguments.print) arguments.tokens :=
    (Json.lexesBefore_print arguments hfinite).blanks hgap
  have hhead := (Lexes.mark .beginObject).append ((Json.lexes_key "name").append
    ((Lexes.mark .colon).append (hname.append
      ((Lexes.mark .comma).append (hkey.append (.mark .colon))))))
  have hwhole := (LexesBefore.lexes_append hhead hvalue).close rfl (.mark .endObject)
  simpa [spelled, callOf, Json.tokens, Json.memberTokens, Json.commaTokens, List.append_assoc,
    Json.Token.Mark.text, Json.Token.Mark.token] using hwhole

theorem isTrimmed_spelled (gap : List Char) (name : String) (arguments : Json) :
    Text.IsTrimmed (spelled gap name arguments) := by
  have hclose : (spelled gap name arguments).getLast? = some '\x7d' := by
    rw [spelled, List.getLast?_cons, List.getLast?_concat]
    rfl
  constructor
  · intro c hc
    cases hc
    rfl
  · intro c hc
    rw [hclose] at hc
    cases hc
    rfl

theorem parse?_spelled (hgap : ∀ c ∈ gap, Token.isBlank c = true) (name : String)
    (hfinite : arguments.finite = true) :
    Json.Tree.parse? (String.ofList (spelled gap name arguments)) =
      some (.ofJson (callOf name arguments)) :=
  Json.Tree.parse?_of_lexesBefore (.of_lexes (lexes_spelled hgap name hfinite))

theorem reader_callOf (name : String) (arguments : Json) :
    Call.reader Json.maxDepth (.ofJson (callOf name arguments)) =
      ((Json.Tree.ofJson arguments).value? 126).map fun v => ⟨some name, v⟩ := by
  have hrecord : Call.reader Json.maxDepth (.ofJson (callOf name arguments)) =
      ((Json.Tree.ofJson arguments).value? 126).bind fun v => some ⟨some name, v⟩ := rfl
  rw [hrecord, Option.map_eq_bind]
  rfl

/-- What is read of a call, whatever blanks are in it and around it. -/
theorem reader_spelled (hfront : ∀ c ∈ front, Text.isBlank c = true)
    (hgap : ∀ c ∈ gap, Token.isBlank c = true) (hback : ∀ c ∈ back, Text.isBlank c = true)
    (name : String) (hfinite : arguments.finite = true) :
    Call.reader.parse? (Text.trim (String.ofList (front ++ spelled gap name arguments ++ back))) =
      ((Json.Tree.ofJson arguments).value? 126).map fun v => ⟨some name, v⟩ := by
  have htrim : Text.trim (String.ofList (front ++ spelled gap name arguments ++ back)) =
      String.ofList (spelled gap name arguments) := by
    rw [Text.trim, String.toList_ofList, Text.trimChars_append_blank hfront hback,
      Text.trimChars_of_isTrimmed (isTrimmed_spelled gap name arguments)]
  rw [htrim, Json.Reader.parse?, parse?_spelled hgap name hfinite, Option.bind_some, reader_callOf]

/-! ## what a call is decoded as -/

/-- What a call of a tool with the value of its arguments is decoded as. -/
def outcome (name : String) (arguments : Json) : Except CallFault String :=
  if name ≠ Action.shellTool then .error (.unknownTool name)
  else match ((arguments.member? "command").bind Json.text?).bind Text.nonBlank? with
    | some command => .ok command
    | none => .error .noCommand

theorem command?_of_unwrap? {payload name : String} {written value : Json}
    (hcall : Call.reader.parse? (Text.trim payload) = some ⟨some name, written⟩)
    (hvalue : Call.unwrap? written = some value) : command? payload = outcome name value := by
  simp only [command?, hcall, hvalue]
  rfl

/-- A value that is no text is read back as none. -/
theorem unwrap?_reread {v : Json} (hv : v.text? = none) : Call.unwrap? v.reread = some v.reread := by
  cases v with
  | string s => cases hv
  | null | bool b | number n | array items | object members => rfl

/-- The text of a value holds what is read back of it. -/
theorem unwrap?_compact {v : Json} (hnumbers : v.allNumbers Json.Number.isValid = true)
    (hdepth : v.depth ≤ Json.maxDepth) : Call.unwrap? (.string v.compact) = some v.reread := by
  rw [Call.unwrap?, Json.parse?, Json.Tree.parse?_compact (Json.finite_of_isValid hnumbers),
    Option.bind_some, Json.Tree.value?_ofJson v (Json.legible_of_isValid hnumbers) hdepth]

section

variable {v : Json} (hnumbers : v.allNumbers Json.Number.isValid = true) (hdepth : v.depth ≤ 126)
  (name : String) (hfront : ∀ c ∈ front, Text.isBlank c = true)
  (hgap : ∀ c ∈ gap, Token.isBlank c = true) (hback : ∀ c ∈ back, Text.isBlank c = true)

include hnumbers hdepth hfront hgap hback

/-- A call whose arguments are a value. -/
theorem command?_value (hv : v.text? = none) :
    command? (String.ofList (front ++ spelled gap name v ++ back)) = outcome name v.reread := by
  have hread := reader_spelled hfront hgap hback name (Json.finite_of_isValid hnumbers)
  rw [Json.Tree.value?_ofJson v (Json.legible_of_isValid hnumbers) hdepth] at hread
  exact command?_of_unwrap? hread (unwrap?_reread hv)

/-- A call whose arguments are the text of a value. -/
theorem command?_text :
    command? (String.ofList (front ++ spelled gap name (.string v.compact) ++ back)) =
      outcome name v.reread := by
  have hstring : (Json.string v.compact).finite = true := rfl
  exact command?_of_unwrap? (reader_spelled hfront hgap hback name hstring)
    (unwrap?_compact hnumbers (Nat.le_succ_of_le hdepth))

end

/-- **Both forms of arguments are decoded alike.**  Arguments that are a value, no text themselves
and nested at most 126 deep, give the same command, or the same fault, as a string that holds their
text: for any name of the tool, and whatever blanks are in the calls and around them. -/
theorem command?_encoded {v : Json} (hv : v.text? = none)
    (hnumbers : v.allNumbers Json.Number.isValid = true) (hdepth : v.depth ≤ 126) (name : String)
    {front' gap' back' : List Char}
    (hfront : ∀ c ∈ front, Text.isBlank c = true) (hgap : ∀ c ∈ gap, Token.isBlank c = true)
    (hback : ∀ c ∈ back, Text.isBlank c = true)
    (hfront' : ∀ c ∈ front', Text.isBlank c = true) (hgap' : ∀ c ∈ gap', Token.isBlank c = true)
    (hback' : ∀ c ∈ back', Text.isBlank c = true) :
    command? (String.ofList (front ++ spelled gap name v ++ back)) =
      command? (String.ofList (front' ++ spelled gap' name (.string v.compact) ++ back')) :=
  (command?_value hnumbers hdepth name hfront hgap hback hv).trans
    (command?_text hnumbers hdepth name hfront' hgap' hback').symm

/-- Arguments with quotation marks, a backslash and a number in an inner object. -/
def quotedArguments : Json :=
  .object [("timeout", .object [("s", .array [.number (.negative 1), .null])]),
    ("command", .string " grep \"a\\.b\" notes\n")]

/-- A command with quotation marks is found through two layers of them. -/
theorem command?_encoded_quoted :
    command? (String.ofList (['\n'] ++
      spelled [] Action.shellTool (.string quotedArguments.compact) ++ ['\n'])) =
      .ok "grep \"a\\.b\" notes" := by
  have hnumbers : quotedArguments.allNumbers Json.Number.isValid = true := by decide +kernel
  have hdepth : quotedArguments.depth ≤ 126 := by decide +kernel
  have hbreak := Text.isBlank_break
  have hgap : ∀ c ∈ [' '], Token.isBlank c = true := List.forall_mem_singleton.mpr rfl
  have hplain := command?_value hnumbers hdepth Action.shellTool hbreak hgap hbreak rfl
  have hsame := command?_encoded rfl hnumbers hdepth Action.shellTool hbreak hgap hbreak
    hbreak (List.forall_mem_nil _) hbreak
  rw [← hsame, hplain]
  decide +kernel

end InstallAssistant.Reply
