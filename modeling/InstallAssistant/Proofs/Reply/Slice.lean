import InstallAssistant.Proofs.Markup.Slice
import InstallAssistant.Reply

/-!
# InstallAssistant.Proofs.Reply.Slice

Replies read by positions.  Each part of a reply is a slice of its text, from the
end of one tag to the start of another, from a cursor to the next tag, or up to
an end of the text.  `decode?` has no value as soon as one of these slices is not
there; it always has one, and it is that of `decode` (`decode?_eq`).
-/

namespace InstallAssistant.Reply.Sliced

open Markup Text

/-! ## the parts of a reply, by positions -/

/-- The reasoning in a text and the text without it, cut at the tags before and after it. -/
def splitAt? (s : List Char) : Option Tag → Option Tag → Option (Option String × List Char)
  | some opening, some closing => do
    let inside ← slice? s opening.stop closing.start
    let front ← slice? s 0 opening.start
    let rest ← slice? s closing.stop (byteLength s)
    return (reasoning? inside, front ++ rest)
  | some opening, none => do
    let inside ← slice? s opening.stop (byteLength s)
    let front ← slice? s 0 opening.start
    return (reasoning? inside, front)
  | none, some closing => do
    let inside ← slice? s 0 closing.start
    let rest ← slice? s closing.stop (byteLength s)
    return (reasoning? inside, rest)
  | none, none => return (none, s)

def splitReasoning? (s : List Char) : Option (Option String × List Char) := do
  let tags ← Lexer.tags? s
  let opening := findTag? "think" 0 tags
  let closing := findTag? "/think" ((opening.map Tag.stop).getD 0) tags
  splitAt? s opening closing

/-- What stands in the first tool call of a text: from the end of its tag up to the next tag that
ends it, or to the end of the text. -/
def callPayload? (body : List Char) : Option (Option (List Char)) := do
  let tags ← Lexer.tags? body
  match findTag? "tool_call" 0 tags with
  | none => return none
  | some opening =>
    let closing := tags.find? fun t =>
      decide (opening.stop ≤ t.start) && endsCall (.tag t.name)
    let payload ← slice? body opening.stop ((closing.map Tag.start).getD (byteLength body))
    return some payload

/-- The text from the cursor on, without the tags. -/
def stripFrom? (s : List Char) (cursor : Nat) : List Tag → Option (List Char)
  | [] => slice? s cursor (byteLength s)
  | t :: tags => do
    let part ← slice? s cursor t.start
    let rest ← stripFrom? s t.stop tags
    return part ++ rest

def strip? (s : List Char) : Option (List Char) := do
  let tags ← Lexer.tags? s
  stripFrom? s 0 tags

/-- The action that a generated text stands for, if no slice is missing. -/
def decode? (raw : String) : Option (Except Fault Action) := do
  let (thinking, body) ← splitReasoning? (unifyBreaks raw.toList)
  match ← callPayload? body with
  | some payload =>
    match command? (String.ofList payload) with
    | .ok command => return .ok ⟨.command, command, thinking⟩
    | .error fault => return .error (.malformedCall fault)
  | none =>
    let answer ← strip? body
    match nonBlank? (String.ofList answer) with
    | some answer => return .ok ⟨.text, answer, thinking⟩
    | none => return .error .empty

/-! ## no slice is missing -/

section

variable {s x y z a b : List Char}

theorem splitAt?_both (h : s = x ++ (Piece.tag a).spell ++ y ++ (Piece.tag b).spell ++ z) :
    splitAt? s (some (tagAfter x a)) (some (tagAfter (x ++ (Piece.tag a).spell ++ y) b)) =
      some (reasoning? y, x ++ z) := by
  have hinside : slice? s (tagAfter x a).stop (tagAfter (x ++ (Piece.tag a).spell ++ y) b).start =
      some y := slice?_between (by rw [h, List.append_assoc])
  have hfront : slice? s 0 (tagAfter x a).start = some x :=
    slice?_front (z := (Piece.tag a).spell ++ y ++ (Piece.tag b).spell ++ z) (by simp [h])
  have hrest : slice? s (tagAfter (x ++ (Piece.tag a).spell ++ y) b).stop (byteLength s) = some z :=
    slice?_rest h
  simp only [splitAt?, hinside, hfront, hrest]
  rfl

theorem splitAt?_opening (h : s = x ++ (Piece.tag a).spell ++ y) :
    splitAt? s (some (tagAfter x a)) none = some (reasoning? y, x) := by
  have hinside : slice? s (tagAfter x a).stop (byteLength s) = some y := slice?_rest h
  have hfront : slice? s 0 (tagAfter x a).start = some x :=
    slice?_front (by rw [h, List.append_assoc])
  simp only [splitAt?, hinside, hfront]
  rfl

theorem splitAt?_closing (h : s = y ++ (Piece.tag b).spell ++ z) :
    splitAt? s none (some (tagAfter y b)) = some (reasoning? y, z) := by
  have hinside : slice? s 0 (tagAfter y b).start = some y :=
    slice?_front (by rw [h, List.append_assoc])
  have hrest : slice? s (tagAfter y b).stop (byteLength s) = some z := slice?_rest h
  simp only [splitAt?, hinside, hrest]
  rfl

end

theorem splitReasoning?_eq (s : List Char) : splitReasoning? s = some (splitReasoning s) := by
  have hrun : splitReasoning? s =
      splitAt? s (findTag? "think" 0 (tags s))
        (findTag? "/think" (((findTag? "think" 0 (tags s)).map Tag.stop).getD 0) (tags s)) := by
    rw [splitReasoning?, Lexer.tags?_eq]
    rfl
  rw [hrun, splitReasoning, findTag?_start]
  cases hopen : cutAt? "think" (scan s) with
  | none =>
      rw [Option.map_none, Option.map_none, Option.getD_none, findTag?_start]
      cases hclose : cutAt? "/think" (scan s) with
      | none => rfl
      | some cut => rw [Option.map_some, splitAt?_closing (eq_of_cutAt?_scan hclose)]
  | some cut =>
      obtain ⟨front, rest⟩ := cut
      have hs := eq_of_cutAt?_scan hopen
      rw [Option.map_some, Option.map_some, Option.getD_some, findTag?_behind hopen]
      cases hclose : cutAt? "/think" rest with
      | none =>
          rw [Option.map_none, splitAt?_opening hs]
          simp only [hclose]
      | some cut =>
          obtain ⟨inside, rest⟩ := cut
          rw [spell_eq_of_cutAt? hclose, ← List.append_assoc, ← List.append_assoc] at hs
          rw [Option.map_some, splitAt?_both hs]
          simp only [hclose]

/-- The tag that ends a call is behind the pieces that end none. -/
theorem start_closing (x : List Char) (ps : List Piece) :
    (((tagsFrom (byteLength x) ps).find? fun t => endsCall (.tag t.name)).map Tag.start).getD
        (byteLength (x ++ spell ps)) =
      byteLength (x ++ spell (ps.takeWhile fun p => !endsCall p)) := by
  induction ps generalizing x with
  | nil => rfl
  | cons p ps ih =>
      cases p with
      | char c =>
          have hrest := ih (x ++ [c])
          rw [tagsFrom_cons_char, List.takeWhile_cons_of_pos rfl]
          simpa [Piece.spell] using hrest
      | tag name =>
          rw [tagsFrom_cons_tag]
          by_cases hname : endsCall (.tag name) = true
          · simp [tagAfter, hname]
          · have hrest := ih (x ++ (Piece.tag name).spell)
            rw [List.find?_cons_of_neg (by simpa [tagAfter] using hname),
              List.takeWhile_cons_of_pos (by simpa using hname)]
            simpa using hrest

theorem callPayload?_eq (body : List Char) : callPayload? body = some (Reply.callPayload? body) := by
  simp only [callPayload?, Lexer.tags?_eq, Option.bind_eq_bind, Option.bind_some, findTag?_start,
    Reply.callPayload?]
  cases hopen : cutAt? "tool_call" (scan body) with
  | none => rfl
  | some cut =>
      obtain ⟨front, rest⟩ := cut
      have hbody := eq_of_cutAt?_scan hopen
      have hclosing : (((tags body).find? fun t =>
          decide ((tagAfter (spell front) "tool_call".toList).stop ≤ t.start) &&
            endsCall (.tag t.name)).map Tag.start).getD (byteLength body) =
          byteLength (spell front ++ (Piece.tag "tool_call".toList).spell ++
            spell (rest.takeWhile fun p => !endsCall p)) := by
        have hstart := start_closing (spell front ++ (Piece.tag "tool_call".toList).spell) rest
        rw [← hbody] at hstart
        rw [find?_behind hopen]
        exact hstart
      have hpayload : slice? body (tagAfter (spell front) "tool_call".toList).stop
          (byteLength (spell front ++ (Piece.tag "tool_call".toList).spell ++
            spell (rest.takeWhile fun p => !endsCall p))) =
          some (spell (rest.takeWhile fun p => !endsCall p)) := by
        refine slice?_between (z := spell (rest.dropWhile fun p => !endsCall p)) ?_
        rw [List.append_assoc _ (spell _), ← spell_append, List.takeWhile_append_dropWhile]
        exact hbody
      rw [Option.map_some, Option.map_some]
      simp only [hclosing, hpayload]
      rfl

theorem stripFrom?_eq {s x y : List Char} {ps : List Piece} (h : s = x ++ y ++ spell ps) :
    stripFrom? s (byteLength x) (tagsFrom (byteLength (x ++ y)) ps) = some (y ++ strip ps) := by
  induction ps generalizing x y with
  | nil =>
      rw [spell_nil, List.append_nil] at h
      rw [tagsFrom, stripFrom?, slice?_rest h, strip, List.append_nil]
  | cons p ps ih =>
      cases p with
      | char c =>
          have hrest := ih (x := x) (y := y ++ [c]) (by simpa [Piece.spell] using h)
          rw [tagsFrom_cons_char, strip]
          simpa using hrest
      | tag name =>
          have hrest := ih (x := x ++ y ++ (Piece.tag name).spell) (y := []) (by simpa using h)
          have hpart : slice? s (byteLength x) (byteLength (x ++ y)) = some y := slice?_between h
          rw [List.append_nil, List.nil_append] at hrest
          rw [tagsFrom_cons_tag, strip, stripFrom?]
          simp only [tagAfter, hpart, hrest]
          rfl

theorem strip?_eq (s : List Char) : strip? s = some (strip (scan s)) := by
  rw [strip?, Lexer.tags?_eq]
  exact stripFrom?_eq (x := []) (y := []) (spell_scan s).symm

theorem decode?_eq (raw : String) : decode? raw = some (decode raw) := by
  rw [decode?, splitReasoning?_eq, decode]
  obtain ⟨thinking, body⟩ := splitReasoning (unifyBreaks raw.toList)
  simp only [Option.bind_eq_bind, Option.bind_some, callPayload?_eq, strip?_eq]
  cases Reply.callPayload? body with
  | some payload =>
      dsimp only
      cases command? (String.ofList payload) <;> rfl
  | none =>
      dsimp only
      cases nonBlank? (String.ofList (strip (scan body))) <;> rfl

end InstallAssistant.Reply.Sliced
