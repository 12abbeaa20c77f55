import InstallAssistant.Text.CaseTable

/-!
# InstallAssistant.Text.Case

The lower case of a text, as Unicode defines it for no language in particular.
Two rules go beyond the table of single characters:

* `İ` becomes `i` followed by a combining dot above;
* a capital sigma at the end of a word becomes a final sigma: a cased character
  stands somewhere before it and none after it, case-ignorable characters aside.
-/

namespace InstallAssistant.Text

def inRanges (ranges : List (Nat × Nat)) (c : Char) : Bool :=
  ranges.any fun (first, last) => first ≤ c.toNat && c.toNat ≤ last

def isCased (c : Char) : Bool := inRanges casedRanges c

def isCaseIgnorable (c : Char) : Bool := inRanges ignorableRanges c

/-- The lower case of one character, wherever it stands. -/
def lowerChar (c : Char) : Char :=
  match lowerRanges.find? fun r =>
      r.first ≤ c.toNat && c.toNat ≤ r.last && (c.toNat - r.first) % r.stride == 0 with
  | some r => Char.ofNat (c.toNat + r.shift).toNat
  | none => c

/-- Whether the first character that is not case-ignorable is cased. -/
def startsCased (s : List Char) : Bool :=
  match s.dropWhile isCaseIgnorable with
  | c :: _ => isCased c
  | [] => false

/-- The lower case of the rest of a text; `afterCased` tells whether the last character before it
that is not case-ignorable is cased. -/
def lowerFrom (afterCased : Bool) : List Char → List Char
  | [] => []
  | c :: rest =>
    let low :=
      if c = 'Σ' then [if afterCased && !startsCased rest then 'ς' else 'σ']
      else if c = 'İ' then ['i', '\u0307']
      else [lowerChar c]
    low ++ lowerFrom (if isCaseIgnorable c then afterCased else isCased c) rest

def lower (s : List Char) : List Char := lowerFrom false s

end InstallAssistant.Text
