import InstallAssistant.Proofs.Training.Target

/-!
# InstallAssistant.Proofs.Training.TurnEnd

The token that ends a turn.  Padding does not count, so a compiler is refused if
its padding is the mark that ends a turn; but what is compared with the padding is
the id of the mark as a text of its own, with special tokens.  For an encoder that
has one id for the mark wherever it stands (`Encoder.Marking`), padding with the
mark is refused exactly if nothing goes around that text (`make_eq_error_iff`).  In
a row that has room for all ids, the label of the mark behind the target is its id,
unless it is the padding (`label_turnEnd`).  It may be: an encoder that begins texts
with an id can pad with the mark (`padding_is_turnEnd`).
-/

namespace InstallAssistant

/-! ## encoders with a mark -/

/-- An encoder that has one id for a mark, wherever it stands in a text. -/
structure Encoder.Marking (e : Encoder) (mark : String) (id : UInt32) where
  /-- The id in front of every text, if there is one. -/
  lead : (special : Bool) → Option UInt32
  /-- The ids of a text, without the one in front. -/
  ids : (special : Bool) → (text : String) → List UInt32
  encode_eq : ∀ text special,
    e.encode text special = .ok ((lead special).toList ++ ids special text)
  ids_mark : ∀ special before after,
    ids special (before ++ mark ++ after) = ids special before ++ id :: ids special after
  /-- Whether a text is one token is seen from its encoding. -/
  single_eq : e.single? = Encoder.soleId? e.encode

namespace Encoder.Marking

variable {e : Encoder} {mark : String} {id : UInt32}

/-- With special tokens, nothing goes around the mark when it is the whole text. -/
def Bare (m : e.Marking mark id) : Prop := m.lead true = none ∧ m.ids true "" = []

theorem single?_mark_eq_some_iff (m : e.Marking mark id) {x : UInt32} :
    e.single? mark = some x ↔ x = id ∧ m.Bare := by
  have hmark : m.ids true mark = m.ids true "" ++ id :: m.ids true "" := by
    rw [← m.ids_mark true "" "", String.empty_append, String.append_empty]
  rw [m.single_eq, soleId?, m.encode_eq, hmark, Bare]
  cases m.lead true with
  | some lead => simp
  | none =>
      cases m.ids true "" with
      | nil => simp [eq_comm]
      | cons _ _ => simp

/-- Where the mark behind a text stands among the ids. -/
def position (m : e.Marking mark id) (special : Bool) (text : String) : Nat :=
  ((m.lead special).toList ++ m.ids special text).length

theorem encode_mark (m : e.Marking mark id) (special : Bool) (before after : String) :
    e.encode (before ++ mark ++ after) special =
      .ok ((m.lead special).toList ++ m.ids special before ++ id :: m.ids special after) := by
  rw [m.encode_eq, m.ids_mark, List.append_assoc]

/-- What begins with ids up to one that is not among them is no longer than what comes before that
one. -/
theorem length_le_of_notMem {x : UInt32} {xs ys zs : List UInt32} (h : xs <+: ys ++ x :: zs)
    (hx : x ∉ xs) : xs.length ≤ ys.length := by
  by_contra hlong
  have hwhole : ys ++ [x] <+: ys ++ x :: zs := ⟨zs, by simp⟩
  have hmark : ys ++ [x] <+: xs :=
    List.prefix_of_prefix_length_le hwhole h (by simp; omega)
  exact hx (hmark.subset (by simp))

/-- If the ids of a text with one mark begin those of a longer text with a second mark, the second
mark stands behind them, unless it seems to be in what follows the first. -/
theorem length_le_position (m : e.Marking mark id) {special : Bool}
    {before head reply after : String} {ids fullIds : List UInt32}
    (hids : e.encode (before ++ mark ++ head) special = .ok ids)
    (hfull : e.encode (before ++ mark ++ head ++ reply ++ mark ++ after) special = .ok fullIds)
    (hbegins : ids <+: fullIds) (hhead : id ∉ m.ids special head) :
    ids.length ≤ m.position special (before ++ mark ++ head ++ reply) := by
  have hreply : before ++ mark ++ head ++ reply = before ++ mark ++ (head ++ reply) :=
    String.append_assoc
  rw [m.encode_mark] at hids hfull
  obtain rfl := Except.ok.inj hids
  obtain rfl := Except.ok.inj hfull
  rw [hreply, m.ids_mark] at hbegins
  rw [position, hreply, m.ids_mark]
  simp only [List.append_assoc, List.prefix_append_right_inj, List.cons_append,
    List.cons_prefix_cons, true_and] at hbegins
  have hle := length_le_of_notMem hbegins hhead
  simp only [List.length_append, List.length_cons]
  omega

end Encoder.Marking

/-! ## bytes and a mark -/

namespace Encoder

/-- The ids of a piece: one for the end of a turn, and those of its bytes for any other. -/
def pieceIds (p : Markup.Piece) : List UInt32 :=
  if p = .tag "|im_end|".toList then [300] else (Text.Utf8.encodeChars p.spell).map Bytes.idOf

def turnIds (text : String) : List UInt32 := (Markup.scan text.toList).flatMap pieceIds

/-- The encoder of bytes with one id, 300, for the end of a turn, and with special tokens an id in
front of a text if there is one for that. -/
def turnBytes (pad : UInt32) (begin? : Option UInt32) : Encoder :=
  let encode := fun text special => .ok ((if special then begin? else none).toList ++ turnIds text)
  ⟨"turn-bytes", pad, encode, Bytes.decode, soleId? encode⟩

theorem turnIds_append {before after : String}
    (h : Markup.Closed before.toList ∨ Markup.Fresh after.toList) :
    turnIds (before ++ after) = turnIds before ++ turnIds after := by
  rw [turnIds, String.toList_append, Markup.scan_append h, List.flatMap_append]
  rfl

/-- It has that id wherever a turn ends. -/
def turnBytesMarking (pad : UInt32) (begin? : Option UInt32) :
    (turnBytes pad begin?).Marking Chat.ChatML.turnEnd 300 where
  lead special := if special then begin? else none
  ids _ := turnIds
  encode_eq _ _ := rfl
  ids_mark _ before after := by
    have hmark : Chat.ChatML.turnEnd.toList = Markup.tagText "|im_end|" := by decide
    have hafter : turnIds (Chat.ChatML.turnEnd ++ after) = 300 :: turnIds after := by
      rw [turnIds, String.toList_append, hmark, Markup.scan_tagText_append rfl rfl]
      rfl
    have hfresh : Markup.Fresh (Chat.ChatML.turnEnd ++ after).toList := by
      rw [String.toList_append, hmark]
      exact Markup.fresh_bracket _
    rw [String.append_assoc, turnIds_append (.inr hfresh), hafter]
  single_eq := rfl

end Encoder

namespace Training.Compiler

open Chat

/-! ## texts and their ids -/

section

variable {tools : List Json} {conversation : Conversation} {target prompt full : String}

theorem full_eq (hprompt : Prompter.prompt ⟨chatML, tools⟩ conversation = .ok prompt)
    (hfull : Prompter.full ⟨chatML, tools⟩ conversation target = .ok full) :
    full = prompt ++ target ++ ChatML.turnEnd ++ "\n" := by
  rw [prompt_chatML] at hprompt
  rw [full_chatML] at hfull
  rw [ChatML.render_append_reply hprompt hfull]
  simp only [String.append_assoc]

theorem exists_prompt_eq (hprompt : Prompter.prompt ⟨chatML, tools⟩ conversation = .ok prompt) :
    ∃ before, prompt = before ++ ChatML.turnEnd ++ ("\n" ++ ChatML.replyHead) := by
  rw [prompt_chatML] at hprompt
  exact ChatML.exists_prompt_eq hprompt

/-- No tag that begins in a prompt goes on behind it. -/
theorem closed_prompt (hprompt : Prompter.prompt ⟨chatML, tools⟩ conversation = .ok prompt) :
    Markup.Closed prompt.toList := by
  obtain ⟨before, rfl⟩ := exists_prompt_eq hprompt
  have hlast : ("\n" ++ ChatML.replyHead).toList.getLast? = some '\n' := by decide
  intro c hc
  rw [String.toList_append, List.getLast?_append, hlast] at hc
  obtain rfl := Option.some.inj hc
  decide

/-- Whatever can be rendered has a row with `turnBytes`, one that has room for all ids. -/
theorem exists_compileTarget_turnBytes (pad : UInt32) (begin? : Option UInt32) (special : Bool)
    (hprompt : Prompter.prompt ⟨chatML, tools⟩ conversation = .ok prompt)
    (hfull : Prompter.full ⟨chatML, tools⟩ conversation target = .ok full) :
    ∃ ids row, (Encoder.turnBytes pad begin?).encode full special = .ok ids ∧ 0 < ids.length ∧
      compileTarget ⟨⟨chatML, tools⟩, Encoder.turnBytes pad begin?, ids.length, special⟩
        conversation target = .ok row := by
  let front := (if special then begin? else none).toList
  let promptIds := front ++ Encoder.turnIds prompt
  let ids := front ++ Encoder.turnIds full
  have htext : full = prompt ++ (target ++ ChatML.turnEnd ++ "\n") := by
    rw [full_eq hprompt hfull]
    simp only [String.append_assoc]
  have hids : ids = promptIds ++ (Encoder.turnIds target ++ 300 :: Encoder.turnIds "\n") := by
    have hreply := (Encoder.turnBytesMarking pad begin?).ids_mark special target "\n"
    simp only [ids, promptIds]
    rw [htext, Encoder.turnIds_append (.inl (closed_prompt hprompt)), List.append_assoc]
    exact congrArg (fun rest => front ++ (Encoder.turnIds prompt ++ rest)) hreply
  have hlonger : promptIds.length < ids.length := by
    simp only [hids, List.length_append, List.length_cons]
    omega
  have hencodes : Encodes ⟨⟨chatML, tools⟩, Encoder.turnBytes pad begin?, ids.length, special⟩
      conversation target promptIds ids := by
    refine ⟨prompt, full, hprompt, hfull, ?_, rfl, rfl⟩
    rw [htext, String.toList_append]
    exact List.prefix_append _ _
  have hbegins : promptIds <+: ids ∧ promptIds ≠ ids := by
    rw [hids]
    exact ⟨List.prefix_append _ _, by simp⟩
  exact ⟨ids, _, rfl, Nat.zero_lt_of_lt hlonger,
    (compileTarget_eq_ok_iff_of_encodes hencodes).mpr ⟨hbegins, hlonger, rfl⟩⟩

end

/-- Such a row, for a question with a command as the target. -/
theorem exists_compileTarget_lsblk (pad : UInt32) (begin? : Option UInt32) :
    ∃ prompt full ids row,
      Prompter.prompt ⟨chatML, [shellTool]⟩ ⟨some "c", [⟨.user, "list disks"⟩]⟩ = .ok prompt ∧
      Prompter.full ⟨chatML, [shellTool]⟩ ⟨some "c", [⟨.user, "list disks"⟩]⟩
        (Action.target ⟨.command, "lsblk", none⟩) = .ok full ∧
      (Encoder.turnBytes pad begin?).encode full false = .ok ids ∧ 0 < ids.length ∧
      compileTarget ⟨⟨chatML, [shellTool]⟩, Encoder.turnBytes pad begin?, ids.length, false⟩
        ⟨some "c", [⟨.user, "list disks"⟩]⟩ (Action.target ⟨.command, "lsblk", none⟩) =
          .ok row := by
  have hsystem : '<' ∉ (systemPrompt "c").toList := bracket_notMem_systemPrompt (by decide)
  have htarget : ChatML.marker? (Action.target ⟨.command, "lsblk", none⟩) = none := by
    decide +kernel
  obtain ⟨prompt, full, hprompt, hfull⟩ := exists_renderings
    ⟨some "c", [⟨.user, "list disks"⟩]⟩ _ hsystem (by decide) htarget [shellTool]
  obtain ⟨ids, row, hrow⟩ := exists_compileTarget_turnBytes pad begin? false hprompt hfull
  exact ⟨prompt, full, ids, row, hprompt, hfull, hrow⟩

/-! ## the check -/

theorem make_eq_ok_iff_of_marking {e : Encoder} {id : UInt32} (p : Prompter)
    (m : e.Marking p.template.endOfTurn id) {maxLength : Nat} (special : Bool) {c : Compiler} :
    make p e maxLength special = .ok c ↔
      maxLength ≠ 0 ∧ ¬ (e.pad = id ∧ m.Bare) ∧ c = ⟨p, e, maxLength, special⟩ := by
  rw [make_eq_ok_iff, ne_eq (e.single? _), m.single?_mark_eq_some_iff]

/-- **Which compilers are refused**: those whose padding is the mark that ends a turn, if nothing
goes around the mark. -/
theorem make_eq_error_iff {e : Encoder} {id : UInt32} (p : Prompter)
    (m : e.Marking p.template.endOfTurn id) (maxLength : Nat) (special : Bool) :
    (∃ fault, make p e maxLength special = .error fault) ↔
      maxLength = 0 ∨ e.pad = id ∧ m.Bare := by
  rw [Result.exists_eq_error_iff]
  simp only [make_eq_ok_iff_of_marking p m special, exists_and_left, exists_eq, and_true]
  tauto

/-! ## the label -/

section

variable {e : Encoder} {id : UInt32} (m : e.Marking ChatML.turnEnd id) {tools : List Json}
  {maxLength : Nat} {special : Bool} {conversation : Conversation} {target prompt full : String}
  {ids : List UInt32} {row : Row}

/-- In a row that has room for all ids, the mark behind the target has its id as label, unless it
seems to be in the prompt or is the padding. -/
theorem getElem?_turnEnd
    (hrow : compileTarget ⟨⟨chatML, tools⟩, e, maxLength, special⟩ conversation target = .ok row)
    (hprompt : Prompter.prompt ⟨chatML, tools⟩ conversation = .ok prompt)
    (hfull : Prompter.full ⟨chatML, tools⟩ conversation target = .ok full)
    (hids : e.encode full special = .ok ids) (hfit : ids.length ≤ maxLength) :
    row.inputIds[m.position special (prompt ++ target)]? = some id ∧
      row.labels[m.position special (prompt ++ target)]? =
        some (if row.promptLength ≤ m.position special (prompt ++ target) ∧ e.pad ≠ id
          then (id.toNat : Int) else ignored) := by
  obtain ⟨prompt', hp, full', hf, _, promptIds, _, fullIds, hfullIds, _, _, rfl⟩ :=
    compileTarget_eq_ok_iff.mp hrow
  obtain rfl := Except.ok.inj (hprompt.symm.trans hp)
  obtain rfl := Except.ok.inj (hfull.symm.trans hf)
  obtain rfl := Except.ok.inj (hids.symm.trans (encode_eq_ok_iff.mp hfullIds))
  have hmark : ids[m.position special (prompt ++ target)]? = some id := by
    rw [full_eq hprompt hfull, m.encode_mark] at hids
    rw [← Except.ok.inj hids, Encoder.Marking.position, List.getElem?_append_right (Nat.le_refl _),
      Nat.sub_self, List.getElem?_cons_zero]
  have hroom : m.position special (prompt ++ target) < maxLength :=
    Nat.lt_of_lt_of_le (List.getElem?_eq_some_iff.mp hmark).1 hfit
  exact Row.getElem?_ofTokens e.pad hroom hmark

/-- The mark behind the target stands behind the prompt, unless it seems to be in the head of a
reply. -/
theorem promptLength_le_turnEnd
    (hrow : compileTarget ⟨⟨chatML, tools⟩, e, maxLength, special⟩ conversation target = .ok row)
    (hprompt : Prompter.prompt ⟨chatML, tools⟩ conversation = .ok prompt)
    (hhead : id ∉ m.ids special ("\n" ++ ChatML.replyHead)) :
    row.promptLength ≤ m.position special (prompt ++ target) := by
  obtain ⟨prompt', hp, full, hfull, _, promptIds, hids, fullIds, hfullIds, hparts, _, rfl⟩ :=
    compileTarget_eq_ok_iff.mp hrow
  obtain rfl := Except.ok.inj (hprompt.symm.trans hp)
  have hids := encode_eq_ok_iff.mp hids
  have hfullIds := encode_eq_ok_iff.mp hfullIds
  have hbegins : promptIds <+: fullIds := (divergence?_eq_none_iff_strictPrefix.mp hparts).1
  rw [full_eq hprompt hfull] at hfullIds
  obtain ⟨before, hbefore⟩ := exists_prompt_eq hprompt
  rw [hbefore] at hids hfullIds ⊢
  exact m.length_le_position hids hfullIds hbegins hhead

end

/-- **Whether the end of a turn is trained.**  A compiler is refused if its padding is the mark
that ends a turn and nothing goes around the mark with special tokens.  In a row that has room for
all ids, the mark behind the target has its id as label, if it stands behind the prompt, as it does
unless it seems to be in the head of a reply, and if it is not the padding; otherwise it does not
count.  So it always counts if nothing goes around the mark. -/
theorem label_turnEnd {e : Encoder} {id : UInt32} (m : e.Marking ChatML.turnEnd id)
    (tools : List Json) (maxLength : Nat) (special : Bool) :
    ((∃ fault, make ⟨chatML, tools⟩ e maxLength special = .error fault) ↔
      maxLength = 0 ∨ e.pad = id ∧ m.Bare) ∧
    ∀ c, make ⟨chatML, tools⟩ e maxLength special = .ok c →
      (e.pad = id → ¬ m.Bare) ∧
      ∀ conversation target row prompt full ids,
        c.compileTarget conversation target = .ok row →
        c.prompter.prompt conversation = .ok prompt →
        c.prompter.full conversation target = .ok full →
        e.encode full special = .ok ids → ids.length ≤ maxLength →
        full = prompt ++ target ++ "<|im_end|>" ++ "\n" ∧
        row.inputIds[m.position special (prompt ++ target)]? = some id ∧
        row.labels[m.position special (prompt ++ target)]? =
          some (if row.promptLength ≤ m.position special (prompt ++ target) ∧ e.pad ≠ id
            then (id.toNat : Int) else ignored) ∧
        (id ∉ m.ids special ("\n" ++ ChatML.replyHead) →
          row.promptLength ≤ m.position special (prompt ++ target)) := by
  refine ⟨make_eq_error_iff ⟨chatML, tools⟩ m maxLength special, fun c hc => ?_⟩
  obtain ⟨_, hcheck, rfl⟩ := (make_eq_ok_iff_of_marking ⟨chatML, tools⟩ m special).mp hc
  refine ⟨not_and.mp hcheck, ?_⟩
  intro conversation target row prompt full ids hrow hprompt hfull hids hfit
  obtain ⟨hid, hlabel⟩ := getElem?_turnEnd m hrow hprompt hfull hids hfit
  exact ⟨full_eq hprompt hfull, hid, hlabel, promptLength_le_turnEnd m hrow hprompt⟩

/-- A command as the target of a compiler that pads with zeros. -/
theorem label_turnEnd_lsblk :
    ∃ c row, ∃ position : Nat,
      make ⟨chatML, [shellTool]⟩ (Encoder.turnBytes 0 none) c.maxLength false = .ok c ∧
      c.compileTarget ⟨some "c", [⟨.user, "list disks"⟩]⟩
        (Action.target ⟨.command, "lsblk", none⟩) = .ok row ∧
      row.inputIds[position]? = some 300 ∧ row.labels[position]? = some 300 := by
  let m := Encoder.turnBytesMarking 0 none
  obtain ⟨prompt, full, ids, row, hprompt, hfull, hids, hpos, hrow⟩ :=
    exists_compileTarget_lsblk 0 none
  have hpad : (Encoder.turnBytes 0 none).pad ≠ 300 := by decide
  have hmake := (make_eq_ok_iff_of_marking ⟨chatML, [shellTool]⟩ m false).mpr
    ⟨Nat.ne_of_gt hpos, fun h => hpad h.1, rfl⟩
  obtain ⟨_, hrows⟩ := label_turnEnd m [shellTool] ids.length false
  obtain ⟨_, hid, hlabel, hbehind⟩ :=
    (hrows _ hmake).2 _ _ row prompt full ids hrow hprompt hfull hids (Nat.le_refl _)
  rw [if_pos ⟨hbehind (by decide +kernel), hpad⟩] at hlabel
  exact ⟨_, row, _, hmake, hrow, hid, hlabel⟩

/-- With an id in front of texts, a compiler may pad with the mark that ends a turn, and then the
mark behind the target does not count. -/
theorem padding_is_turnEnd :
    ∃ c prompt row,
      make ⟨chatML, [shellTool]⟩ (Encoder.turnBytes 300 (some 1)) c.maxLength false = .ok c ∧
      c.encoder.pad = 300 ∧
      Prompter.prompt ⟨chatML, [shellTool]⟩ ⟨some "c", [⟨.user, "list disks"⟩]⟩ = .ok prompt ∧
      c.compileTarget ⟨some "c", [⟨.user, "list disks"⟩]⟩
        (Action.target ⟨.command, "lsblk", none⟩) = .ok row ∧
      let position := (Encoder.turnBytesMarking 300 (some 1)).position false
        (prompt ++ Action.target ⟨.command, "lsblk", none⟩)
      row.inputIds[position]? = some 300 ∧ row.labels[position]? = some ignored := by
  let m := Encoder.turnBytesMarking 300 (some 1)
  obtain ⟨prompt, full, ids, row, hprompt, hfull, hids, hpos, hrow⟩ :=
    exists_compileTarget_lsblk 300 (some 1)
  have hpad : (Encoder.turnBytes 300 (some 1)).pad = 300 := by decide
  have hbare : ¬ m.Bare := fun h => Option.some_ne_none _ h.1
  have hmake := (make_eq_ok_iff_of_marking ⟨chatML, [shellTool]⟩ m false).mpr
    ⟨Nat.ne_of_gt hpos, fun h => hbare h.2, rfl⟩
  obtain ⟨hid, hlabel⟩ := getElem?_turnEnd m hrow hprompt hfull hids (Nat.le_refl _)
  rw [if_neg fun h => h.2 hpad] at hlabel
  exact ⟨_, prompt, row, hmake, hpad, hprompt, hrow, hid, hlabel⟩

end Training.Compiler

end InstallAssistant
