/-!
# InstallAssistant.Text.Lines

Cutting a text into parts: line breaks, separators, and the first place where
another text occurs.
-/

namespace InstallAssistant.Text

/-! ## line breaks -/

/-- Every carriage return that stands right before a line feed is dropped. -/
def unifyBreaks : List Char → List Char
  | '\r' :: '\n' :: rest => '\n' :: unifyBreaks rest
  | c :: rest => c :: unifyBreaks rest
  | [] => []

/-- A line without the carriage return that belongs to its break. -/
def dropBreakReturn (line : List Char) : List Char :=
  match line.reverse with
  | '\r' :: front => front.reverse
  | _ => line

/-- The lines of a text, without their breaks.  `current` holds, in reverse, what has been read of
the line; a text that ends in a break has no empty line after it, and a return at the end of a last
line without a break stays. -/
def linesFrom (current : List Char) : List Char → List (List Char)
  | [] => if current.isEmpty then [] else [current.reverse]
  | '\n' :: rest => dropBreakReturn current.reverse :: linesFrom [] rest
  | c :: rest => linesFrom (c :: current) rest

def lines (s : List Char) : List (List Char) := linesFrom [] s

/-! ## separators -/

/-- The fields between the separators: one more than there are separators. -/
def splitOn (sep : Char) : List Char → List (List Char)
  | [] => [[]]
  | c :: rest =>
    if c = sep then [] :: splitOn sep rest
    else match splitOn sep rest with
      | [] => [[c]]
      | field :: fields => (c :: field) :: fields

/-! ## searching -/

/-- What is left after a given beginning. -/
def after? : List Char → List Char → Option (List Char)
  | [], s => some s
  | _ :: _, [] => none
  | p :: ps, c :: cs => if p = c then after? ps cs else none

/-- The parts of a text before and after the first occurrence of `needle`. -/
def cut? (needle : List Char) : List Char → Option (List Char × List Char)
  | [] => (after? needle []).map fun rest => ([], rest)
  | c :: cs =>
    match after? needle (c :: cs) with
    | some rest => some ([], rest)
    | none => (cut? needle cs).map fun (front, rest) => (c :: front, rest)

/-- Whether `needle` occurs in a text. -/
def contains (needle s : List Char) : Bool := (cut? needle s).isSome

/-- A text without the `c`s at its end. -/
def dropEnd (c : Char) (s : List Char) : List Char := (s.reverse.dropWhile (· == c)).reverse

/-- Texts put behind one another with `sep` between neighbours. -/
def join (sep : String) (parts : List String) : String := sep.intercalate parts

/-! ## laws -/

theorem after?_eq_some_iff {p s rest : List Char} : after? p s = some rest ↔ s = p ++ rest := by
  induction p generalizing s with
  | nil => simp [after?, eq_comm]
  | cons a p ih =>
    cases s with
    | nil => simp [after?]
    | cons c cs =>
      by_cases h : a = c
      · simp [after?, h, ih]
      · simp [after?, h, Ne.symm h]

theorem after?_eq_none_iff {p s : List Char} : after? p s = none ↔ ¬ p <+: s := by
  simp only [Option.eq_none_iff_forall_ne_some, Ne, after?_eq_some_iff]
  constructor
  · rintro h ⟨rest, rfl⟩
    exact h rest rfl
  · rintro h rest rfl
    exact h (List.prefix_append p rest)

/-- A cut loses nothing: front, needle and rest make up the text. -/
theorem eq_of_cut? {needle s front rest : List Char} (h : cut? needle s = some (front, rest)) :
    s = front ++ needle ++ rest := by
  induction s generalizing front with
  | nil =>
    simp only [cut?, Option.map_eq_some_iff] at h
    obtain ⟨r, hr, he⟩ := h
    cases he
    simpa using after?_eq_some_iff.1 hr
  | cons c cs ih =>
    simp only [cut?] at h
    split at h
    · next r hr =>
      cases h
      simpa using after?_eq_some_iff.1 hr
    · next hr =>
      simp only [Option.map_eq_some_iff] at h
      obtain ⟨⟨f, r⟩, hf, he⟩ := h
      cases he
      simp [ih hf]

end InstallAssistant.Text
