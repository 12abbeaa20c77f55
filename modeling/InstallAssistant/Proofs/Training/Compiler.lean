import InstallAssistant.Encoder.Bytes
import InstallAssistant.Training.Compiler
import InstallAssistant.Proofs.Except
import InstallAssistant.Proofs.Training.Row

/-!
# InstallAssistant.Proofs.Training.Compiler

When a conversation with a target has a row, and which one, for any template and
any encoder: there is a row exactly if the ids of the prompt properly begin those
of the full text and leave room for more; the row then masks the prompt and
nothing else; and ids that part are reported where they part
(`exists_row_iff_strictPrefix`).
-/

namespace InstallAssistant.Training.Compiler

open Chat

/-! ## compilers -/

theorem make_eq_ok_iff {p : Prompter} {e : Encoder} {maxLength : Nat} {special : Bool}
    {c : Compiler} :
    make p e maxLength special = .ok c ↔
      maxLength ≠ 0 ∧ e.single? p.template.endOfTurn ≠ some e.pad ∧
        c = ⟨p, e, maxLength, special⟩ := by
  rw [make]
  by_cases hlength : maxLength = 0
  · simp [hlength]
  · by_cases hstop : e.single? p.template.endOfTurn = some e.pad
    · simp [hlength, hstop]
    · simp [hlength, hstop, eq_comm]

/-! ## where ids part -/

theorem divergence?_eq_none_iff {promptIds fullIds : List UInt32} :
    divergence? promptIds fullIds = none ↔ ∃ id rest, fullIds = promptIds ++ id :: rest := by
  induction promptIds generalizing fullIds with
  | nil =>
      cases fullIds with
      | nil => simp [divergence?]
      | cons f fs => simp [divergence?]
  | cons p ps ih =>
      cases fullIds with
      | nil => simp [divergence?]
      | cons f fs =>
          by_cases h : p = f
          · simp [divergence?, h, ih]
          · simp [divergence?, h, Ne.symm h]

/-- The first position where the ids of a prompt and of a full text differ, or the end of the full
text if the prompt goes on behind it. -/
inductive PartsAt (promptIds fullIds : List UInt32) (position : Nat) : Prop
  | differ {p f : UInt32} (hp : promptIds[position]? = some p) (hf : fullIds[position]? = some f)
      (hne : p ≠ f) (hsame : ∀ i < position, promptIds[i]? = fullIds[i]?)
  | cut (hbegins : fullIds <+: promptIds) (hend : position = fullIds.length)

theorem PartsAt.cons {promptIds fullIds : List UInt32} {position : Nat}
    (h : PartsAt promptIds fullIds position) (id : UInt32) :
    PartsAt (id :: promptIds) (id :: fullIds) (position + 1) := by
  cases h with
  | differ hp hf hne hsame =>
      refine .differ (by simpa using hp) (by simpa using hf) hne fun i hi => ?_
      cases i with
      | zero => rfl
      | succ i => simpa using hsame i (by omega)
  | cut hbegins hend =>
      exact .cut (List.cons_prefix_cons.mpr ⟨rfl, hbegins⟩) (by simp [hend])

theorem partsAt_of_divergence? {promptIds fullIds : List UInt32} {position : Nat}
    (h : divergence? promptIds fullIds = some position) : PartsAt promptIds fullIds position := by
  induction promptIds generalizing fullIds position with
  | nil =>
      cases fullIds with
      | nil =>
          obtain rfl := Option.some.inj h
          exact .cut List.prefix_rfl rfl
      | cons f fs => cases h
  | cons p ps ih =>
      cases fullIds with
      | nil =>
          obtain rfl := Option.some.inj h
          exact .cut List.nil_prefix rfl
      | cons f fs =>
          by_cases hpf : p = f
          · simp only [divergence?, hpf, if_true, Option.map_eq_some_iff] at h
            obtain ⟨position, hrest, rfl⟩ := h
            exact hpf ▸ (ih hrest).cons p
          · simp only [divergence?, hpf, if_false] at h
            obtain rfl := Option.some.inj h
            exact .differ rfl rfl hpf (by simp)

/-! ## rows -/

theorem compileTarget_eq_ok_iff {c : Compiler} {conversation : Conversation} {target : String}
    {row : Row} :
    c.compileTarget conversation target = .ok row ↔
      ∃ prompt, c.prompter.prompt conversation = .ok prompt ∧
      ∃ full, c.prompter.full conversation target = .ok full ∧ prompt.toList <+: full.toList ∧
      ∃ promptIds, c.encode prompt = .ok promptIds ∧
      ∃ fullIds, c.encode full = .ok fullIds ∧
        divergence? promptIds fullIds = none ∧ promptIds.length < c.maxLength ∧
        row = .ofTokens fullIds promptIds.length c.maxLength c.encoder.pad := by
  have hcheck : ∀ s t : String, ¬ ((!s.toList.isPrefixOf t.toList) = true) ↔
      s.toList <+: t.toList := by simp
  simp only [compileTarget, Result.bind_eq_ok_iff, Result.mapError_eq_ok_iff, Result.throw_bind,
    Result.check_eq_ok_iff, hcheck]
  constructor
  · rintro ⟨prompt, hprompt, full, hfull, hpre, promptIds, hp, fullIds, hf, hrow⟩
    refine ⟨prompt, hprompt, full, hfull, hpre, promptIds, hp, fullIds, hf, ?_⟩
    cases hd : divergence? promptIds fullIds with
    | some position => simp [hd] at hrow
    | none =>
        simp only [hd, Result.check_eq_ok_iff, Result.pure_eq_ok_iff, Nat.not_le] at hrow
        exact ⟨rfl, hrow.1, hrow.2.symm⟩
  · rintro ⟨prompt, hprompt, full, hfull, hpre, promptIds, hp, fullIds, hf, hd, hlt, hrow⟩
    refine ⟨prompt, hprompt, full, hfull, hpre, promptIds, hp, fullIds, hf, ?_⟩
    simp only [hd, Result.check_eq_ok_iff, Result.pure_eq_ok_iff, Nat.not_le]
    exact ⟨hlt, hrow.symm⟩

/-- The ids of the prompt of a conversation, and of its full text with a target, where both can be
rendered and encoded and the full text begins with the prompt. -/
def Encodes (c : Compiler) (conversation : Conversation) (target : String)
    (promptIds fullIds : List UInt32) : Prop :=
  ∃ prompt full, c.prompter.prompt conversation = .ok prompt ∧
    c.prompter.full conversation target = .ok full ∧ prompt.toList <+: full.toList ∧
    c.encoder.encode prompt c.special = .ok promptIds ∧
    c.encoder.encode full c.special = .ok fullIds

section

variable {c : Compiler} {conversation : Conversation} {target : String}
  {promptIds fullIds : List UInt32} {row : Row}

theorem encode_eq_ok_iff {text : String} {ids : List UInt32} :
    c.encode text = .ok ids ↔ c.encoder.encode text c.special = .ok ids :=
  Result.mapError_eq_ok_iff

/-- Where there is a row, it is the row of an encoding. -/
theorem encodes_of_compileTarget (h : c.compileTarget conversation target = .ok row) :
    ∃ promptIds fullIds, c.Encodes conversation target promptIds fullIds := by
  obtain ⟨prompt, hprompt, full, hfull, hbegins, promptIds, hp, fullIds, hf, _⟩ :=
    compileTarget_eq_ok_iff.mp h
  exact ⟨promptIds, fullIds, prompt, full, hprompt, hfull, hbegins, encode_eq_ok_iff.mp hp,
    encode_eq_ok_iff.mp hf⟩

/-- Whatever is compiled, its labels are ids or do not count. -/
theorem labelsFit_of_compileTarget (h : c.compileTarget conversation target = .ok row) :
    row.LabelsFit := by
  obtain ⟨_, _, _, _, _, _, _, _, _, _, _, rfl⟩ := compileTarget_eq_ok_iff.mp h
  exact Row.labelsFit_ofTokens _ _ _ _

theorem labelsFit_of_compileExample {e : Example} (h : c.compileExample e = .ok row) :
    row.LabelsFit := by
  rw [compileExample] at h
  split at h
  · cases h
  split at h
  · exact labelsFit_of_compileTarget h
  · rw [compileTranscript] at h
    split at h
    · exact labelsFit_of_compileTarget h
    · cases h

/-- What is left to do once there are ids. -/
theorem compileTarget_eq (h : c.Encodes conversation target promptIds fullIds) :
    c.compileTarget conversation target =
      match divergence? promptIds fullIds with
      | some position => .error (.tokenBoundary position)
      | none =>
        if c.maxLength ≤ promptIds.length then
          .error (.promptOverflow promptIds.length c.maxLength)
        else .ok (.ofTokens fullIds promptIds.length c.maxLength c.encoder.pad) := by
  obtain ⟨prompt, full, hprompt, hfull, hbegins, hp, hf⟩ := h
  have hcheck : prompt.toList.isPrefixOf full.toList = true :=
    List.isPrefixOf_iff_prefix.mpr hbegins
  have hp := encode_eq_ok_iff.mpr hp
  have hf := encode_eq_ok_iff.mpr hf
  simp only [compileTarget, hprompt, hfull, hcheck, hp, hf, Result.ok_mapError, Result.ok_bind,
    Bool.not_true, Bool.false_eq_true, if_false]
  cases divergence? promptIds fullIds <;> rfl

theorem divergence?_eq_none_iff_strictPrefix :
    divergence? promptIds fullIds = none ↔ promptIds <+: fullIds ∧ promptIds ≠ fullIds := by
  rw [divergence?_eq_none_iff]
  constructor
  · rintro ⟨id, rest, rfl⟩
    exact ⟨List.prefix_append _ _, by simp⟩
  · rintro ⟨⟨rest, rfl⟩, hne⟩
    cases rest with
    | nil => simp at hne
    | cons id rest => exact ⟨id, rest, rfl⟩

/-- Ids have a row exactly if those of the prompt properly begin the others and fit. -/
theorem compileTarget_eq_ok_iff_of_encodes (h : c.Encodes conversation target promptIds fullIds) :
    c.compileTarget conversation target = .ok row ↔
      (promptIds <+: fullIds ∧ promptIds ≠ fullIds) ∧ promptIds.length < c.maxLength ∧
        row = .ofTokens fullIds promptIds.length c.maxLength c.encoder.pad := by
  rw [compileTarget_eq h, ← divergence?_eq_none_iff_strictPrefix]
  cases divergence? promptIds fullIds with
  | some position => simp
  | none =>
      by_cases hlength : c.maxLength ≤ promptIds.length
      · simp [hlength, Nat.not_lt.mpr hlength]
      · simp [hlength, Nat.not_le.mp hlength, eq_comm]

theorem represents_of_compileTarget (h : c.Encodes conversation target promptIds fullIds)
    (hrow : c.compileTarget conversation target = .ok row) :
    row.Represents fullIds promptIds.length c.maxLength c.encoder.pad := by
  obtain ⟨⟨hbegins, hne⟩, hlength, rfl⟩ := (compileTarget_eq_ok_iff_of_encodes h).mp hrow
  refine Row.represents_ofTokens c.encoder.pad (Nat.lt_min.mpr ⟨?_, hlength⟩)
  exact Nat.lt_of_le_of_ne hbegins.length_le fun heq => hne (hbegins.eq_of_length heq)

end

/-- **When there is a row, and which one**, for any template and any encoder: both texts can be
rendered and encoded, the prompt begins the full text and its ids properly begin those of the full
text, and they leave room in the row.  The row masks the prompt and the padding and nothing else.
Where the ids part instead, the first place where they do is reported. -/
theorem exists_row_iff_strictPrefix (c : Compiler) (conversation : Conversation)
    (target : String) :
    ((∃ row, c.compileTarget conversation target = .ok row) ↔
      ∃ promptIds fullIds, c.Encodes conversation target promptIds fullIds ∧
        (promptIds <+: fullIds ∧ promptIds ≠ fullIds) ∧ promptIds.length < c.maxLength) ∧
    (∀ promptIds fullIds row, c.Encodes conversation target promptIds fullIds →
      c.compileTarget conversation target = .ok row →
      row.Represents fullIds promptIds.length c.maxLength c.encoder.pad) ∧
    ∀ promptIds fullIds, c.Encodes conversation target promptIds fullIds →
      ¬ (promptIds <+: fullIds ∧ promptIds ≠ fullIds) →
      ∃ position, c.compileTarget conversation target = .error (.tokenBoundary position) ∧
        PartsAt promptIds fullIds position := by
  refine ⟨⟨?_, ?_⟩, fun _ _ _ => represents_of_compileTarget, ?_⟩
  · rintro ⟨row, hrow⟩
    obtain ⟨promptIds, fullIds, h⟩ := encodes_of_compileTarget hrow
    obtain ⟨hstrict, hlength, _⟩ := (compileTarget_eq_ok_iff_of_encodes h).mp hrow
    exact ⟨promptIds, fullIds, h, hstrict, hlength⟩
  · rintro ⟨promptIds, fullIds, h, hstrict, hlength⟩
    exact ⟨_, (compileTarget_eq_ok_iff_of_encodes h).mpr ⟨hstrict, hlength, rfl⟩⟩
  · intro promptIds fullIds h hparts
    rw [← divergence?_eq_none_iff_strictPrefix] at hparts
    obtain ⟨position, hposition⟩ := Option.ne_none_iff_exists'.mp hparts
    refine ⟨position, ?_, partsAt_of_divergence? hposition⟩
    rw [compileTarget_eq h, hposition]

/-- What is said behind the first turn, run together. -/
def plainTemplate : Template :=
  ⟨"plain", "", fun turns _ _ => .ok (String.join (turns.tail.map Turn.content))⟩

/-- An encoder of bytes that closes a text with a special token, and so tells a prompt from the
beginning of a longer text. -/
def closedBytes : Encoder :=
  { Encoder.bytes with
    encode := fun text special =>
      .ok (Encoder.Bytes.encode text false ++ if special then [300] else []) }

/-- A question of two bytes with a reply of three, in a row of four tokens; and with special tokens,
where the closed prompt and the text part at the third token. -/
theorem compileTarget_plainTemplate :
    (∃ row,
      compileTarget ⟨⟨plainTemplate, []⟩, closedBytes, 4, false⟩ ⟨none, [⟨.user, "hi"⟩]⟩ "yes" =
        .ok row ∧
      row.Represents [106, 107, 123, 103, 117] 2 4 0) ∧
    ∃ position,
      compileTarget ⟨⟨plainTemplate, []⟩, closedBytes, 4, true⟩ ⟨none, [⟨.user, "hi"⟩]⟩ "yes" =
        .error (.tokenBoundary position) ∧
      PartsAt [106, 107, 300] [106, 107, 123, 103, 117, 300] position := by
  obtain ⟨hrow, hrepresents, _⟩ := exists_row_iff_strictPrefix
    ⟨⟨plainTemplate, []⟩, closedBytes, 4, false⟩ ⟨none, [⟨.user, "hi"⟩]⟩ "yes"
  obtain ⟨_, _, hboundary⟩ := exists_row_iff_strictPrefix
    ⟨⟨plainTemplate, []⟩, closedBytes, 4, true⟩ ⟨none, [⟨.user, "hi"⟩]⟩ "yes"
  have hopen : Encodes ⟨⟨plainTemplate, []⟩, closedBytes, 4, false⟩ ⟨none, [⟨.user, "hi"⟩]⟩ "yes"
      [106, 107] [106, 107, 123, 103, 117] :=
    ⟨"hi", "hiyes", rfl, rfl, by decide, rfl, rfl⟩
  have hclosed : Encodes ⟨⟨plainTemplate, []⟩, closedBytes, 4, true⟩ ⟨none, [⟨.user, "hi"⟩]⟩ "yes"
      [106, 107, 300] [106, 107, 123, 103, 117, 300] :=
    ⟨"hi", "hiyes", rfl, rfl, by decide, rfl, rfl⟩
  constructor
  · obtain ⟨row, h⟩ := hrow.mpr ⟨_, _, hopen, by decide, by decide⟩
    exact ⟨row, h, hrepresents _ _ row hopen h⟩
  · exact hboundary _ _ hclosed (by decide)

end InstallAssistant.Training.Compiler
