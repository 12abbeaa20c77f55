import InstallAssistant.Proofs.Device.Guard
import InstallAssistant.Proofs.Device.Mention
import InstallAssistant.Proofs.Reply.Slice

/-!
# InstallAssistant.Proofs.Device.Slice

Device paths by positions.  A pattern is matched from left to right
(`spansFrom`); whether a match names a device is read off the byte before it, the
byte behind it and, where the shell goes on, the end of its word.  `paths?` has no
value as soon as one of these bytes or slices is not there; it always has one
(`paths?_eq`).

Together with the slices of a reply this says that nothing that is generated, and
no command, leaves the decoder or the guard without a result
(`every_slice_exists`).
-/

namespace InstallAssistant.Device.Sliced

open Text Utf8
open Markup (byteLength)

/-! ## matches -/

/-- The bytes from `start` up to `stop`. -/
structure Span where
  start : Nat
  stop : Nat
deriving DecidableEq, Repr

/-- The matches of `/dev/` and the longest run of path bytes behind it, from left to right; no two
of them overlap. -/
def spansFrom (start : Nat) : List UInt8 → List Span
  | [] => []
  | b :: bytes =>
    if encodeChars root <+: b :: bytes then
      let rest := (b :: bytes).drop root.length
      let stop := start + root.length + (rest.takeWhile (onByte isPathChar)).length
      ⟨start, stop⟩ :: spansFrom stop (rest.dropWhile (onByte isPathChar))
    else spansFrom (start + 1) bytes
termination_by bytes => bytes.length
decreasing_by
  all_goals simp_wf
  have hdrop := (List.dropWhile_sublist (onByte isPathChar)
    (l := (b :: bytes).drop root.length)).length_le
  have hroot : root.length = 5 := rfl
  rw [List.length_drop, List.length_cons] at hdrop
  omega

/-! ## what a match names -/

/-- The byte before a position; the start of the text has none. -/
def byteBefore? (bytes : List UInt8) (i : Nat) : Option (Option UInt8) :=
  if i = 0 then some none else (bytes[i - 1]?).map some

/-- The bytes from a position on. -/
def bytesFrom? (bytes : List UInt8) (i : Nat) : Option (List UInt8) :=
  if i ≤ bytes.length then some (bytes.drop i) else none

/-- Where the shell word at a position ends. -/
def wordEnd? (bytes : List UInt8) (i : Nat) : Option Nat := do
  let rest ← bytesFrom? bytes i
  return ((rest.findIdx? (onByte endsWord)).map (i + ·)).getD bytes.length

/-- The path that is read at a match. -/
def Span.reading? (s : List Char) (m : Span) (before : Option UInt8) : Option (List Char) := do
  let bytes := encodeChars s
  let run ← slice? s m.start m.stop
  let trimmed := (run.reverse.dropWhile isTrailing).reverse
  match bytes[m.stop]? with
  | none => return trimmed
  | some next =>
    if onByte isQuote next && before == some next && decide (root.length < byteLength run) then
      return trimmed
    else if onByte isExpansion next then
      let stop ← wordEnd? bytes m.stop
      slice? s m.start stop
    else return trimmed

/-- The path that a match names, if it names one. -/
def Span.path? (s : List Char) (m : Span) : Option (Option (List Char)) := do
  let before ← byteBefore? (encodeChars s) m.start
  if before.any (onByte isNameChar) then return none
  else
    let path ← m.reading? s before
    return if root.length < byteLength path then some path else none

/-- The device paths in a command, if no byte and no slice is missing. -/
def paths? (command : String) : Option (List String) := do
  let s := collapse command.toList
  let found ← (spansFrom 0 (encodeChars s)).mapM (Span.path? s)
  return ((found.filterMap id).map String.ofList).eraseDups

def verify? (known : Known) (a : Action) : Option Verified :=
  match a.kind with
  | .text => return ⟨a, none⟩
  | .command => do
    let found ← paths? a.content
    match found.filter fun p => !known.allows p with
    | [] => return ⟨a, none⟩
    | blocked =>
      let d : Downgrade := ⟨blocked⟩
      return ⟨⟨.text, d.answer, a.thinking⟩, some d⟩

/-! ## classes of bytes -/

theorem asciiOnly_isPathChar : AsciiOnly isPathChar :=
  asciiOnly_of_mem (l := ['_', '+', '-', '.', '/', ':']) (by simp) fun c hc => by
    simpa [isPathChar, or_assoc] using hc

theorem asciiOnly_isNameChar : AsciiOnly isNameChar :=
  asciiOnly_of_mem (l := ['_']) (by simp) fun c hc => by simpa [isNameChar] using hc

theorem asciiOnly_isExpansion : AsciiOnly isExpansion :=
  asciiOnly_of_mem (l := ['\x22', '\x27', '$', '\x7b', '\\', '\x60', '*', '?', '['])
    (by simp) fun c hc => .inr (by simpa [isExpansion, isQuote, or_assoc] using hc)

theorem asciiOnly_isQuote : AsciiOnly isQuote := fun c hc =>
  asciiOnly_isExpansion c (by simp [isExpansion, hc])

theorem asciiOnly_endsWord : AsciiOnly endsWord :=
  asciiOnly_of_mem (by simp) fun _ hc => .inr (endsWord_iff.mp hc)

/-! ## where the matches are -/

theorem spansFrom_nil (i : Nat) : spansFrom i [] = [] := by rw [spansFrom]

theorem spansFrom_cons {b : UInt8} {bytes : List UInt8} (h : ¬ encodeChars root <+: b :: bytes)
    (i : Nat) : spansFrom i (b :: bytes) = spansFrom (i + 1) bytes := by
  rw [spansFrom, if_neg h]

theorem spansFrom_root_append (i : Nat) (s : List Char) :
    spansFrom i (encodeChars (root ++ s)) =
      ⟨i, i + byteLength (root ++ s.takeWhile isPathChar)⟩ ::
        spansFrom (i + byteLength (root ++ s.takeWhile isPathChar))
          (encodeChars (s.dropWhile isPathChar)) := by
  have hreads := asciiOnly_isPathChar.reads
  have hroot : encodeChars root = 0x2F :: [0x64, 0x65, 0x76, 0x2F] := by decide
  have hpre : encodeChars root <+: 0x2F :: ([0x64, 0x65, 0x76, 0x2F] ++ encodeChars s) := by
    rw [hroot]
    exact List.prefix_append _ _
  have hdrop : (0x2F :: ([0x64, 0x65, 0x76, 0x2F] ++ encodeChars s)).drop root.length =
      encodeChars s := rfl
  have hlength : byteLength root = root.length := by decide
  rw [encodeChars_append, hroot, List.cons_append, spansFrom, if_pos hpre]
  simp only [hdrop, hreads.takeWhile_encodeChars, hreads.dropWhile_encodeChars,
    length_encodeChars, byteLength_append, hlength, Nat.add_assoc]

/-- No match starts within a character. -/
theorem spansFrom_continuation_append {bs : List UInt8} (h : ∀ b ∈ bs, isContinuation b = true)
    (i : Nat) (bytes : List UInt8) :
    spansFrom i (bs ++ bytes) = spansFrom (i + bs.length) bytes := by
  induction bs generalizing i with
  | nil => rfl
  | cons b bs ih =>
      have hno : ¬ encodeChars root <+: b :: (bs ++ bytes) := by
        intro hpre
        have hb : (0x2F : UInt8) = b := (List.cons_prefix_cons.mp hpre).1
        have hcont := h b List.mem_cons_self
        rw [← hb] at hcont
        contradiction
      rw [List.cons_append, spansFrom_cons hno, ih fun d hd => h d (List.mem_cons_of_mem b hd),
        List.length_cons]
      congr 1
      omega

theorem spansFrom_char {c : Char} {s : List Char} (h : ¬ root <+: c :: s) (i : Nat) :
    spansFrom i (encodeChars (c :: s)) = spansFrom (i + c.utf8Size) (encodeChars s) := by
  obtain ⟨b, bs, hbytes, _, hnext⟩ := exists_encodeChar_eq_cons c
  have hno : ¬ encodeChars root <+: b :: (bs ++ encodeChars s) := by
    rw [← List.cons_append, ← hbytes, ← encodeChars_cons, isPrefix_encodeChars_iff]
    exact h
  rw [← length_encodeChar, encodeChars_cons, hbytes, List.cons_append, spansFrom_cons hno,
    spansFrom_continuation_append hnext, List.length_cons]
  congr 1
  omega

/-- The match is the mention: the same run behind the same text. -/
structure Span.Marks (s : List Char) (span : Span) (m : Mention) : Prop where
  exists_front : ∃ x, s = x ++ m.path ++ m.after ∧ m.before = x.getLast? ∧
    span = ⟨byteLength x, byteLength (x ++ m.path)⟩
  isPathChar_of_mem : ∀ c ∈ m.path, isPathChar c = true
  root_le : root.length ≤ m.path.length

/-- **The matches are the mentions**, one by one. -/
theorem forall₂_spansFrom (s : List Char) (before : Option Char) (t : List Char) :
    ∀ x, s = x ++ t → before = x.getLast? →
      List.Forall₂ (Span.Marks s) (spansFrom (byteLength x) (encodeChars t))
        (mentionsFrom before t) := by
  fun_induction mentionsFrom before t with
  | case1 before =>
      intro x _ _
      rw [encodeChars_nil, spansFrom_nil]
      exact .nil
  | case2 before c cs rest hrest path ih =>
      intro x h hbefore
      have hcs : c :: cs = root ++ rest := after?_eq_some_iff.mp hrest
      have hs : s = x ++ path ++ rest.dropWhile isPathChar := by
        rw [h, hcs, List.append_assoc, List.append_assoc, List.takeWhile_append_dropWhile]
      have hlast : path.getLast? = (x ++ path).getLast? :=
        (List.getLast?_append_of_ne_nil _ (by simp [path, root])).symm
      have hpath : ∀ d ∈ path, isPathChar d = true := by
        intro d hd
        rcases List.mem_append.mp hd with hroot | hrun
        · exact List.all_eq_true.mp (by decide) d hroot
        · exact List.mem_takeWhile_imp hrun
      rw [hcs, spansFrom_root_append, ← byteLength_append]
      exact .cons ⟨⟨x, hs, hbefore, rfl⟩, hpath, by simp [path]⟩ (ih _ hs hlast)
  | case3 before c cs hnone ih =>
      intro x h _
      have hrun := ih (x ++ [c]) (by simpa using h) (by simp)
      rw [spansFrom_char (after?_eq_none_iff.mp hnone)]
      simpa using hrun

/-! ## what a match names -/

/-- The byte belongs to the character, or neither is there. -/
def OfChar (b? : Option UInt8) (c? : Option Char) : Prop :=
  Option.Rel (fun b c => b ∈ encodeChar c) b? c?

theorem OfChar.any_eq {b? : Option UInt8} {c? : Option Char} (h : OfChar b? c?)
    {g : UInt8 → Bool} {f : Char → Bool} (hr : Reads g f) : b?.any g = c?.any f := by
  cases h with
  | some hb => exact hr _ _ hb
  | none => rfl

/-- Before a border there is a byte of the last character, or the text starts there. -/
theorem exists_byteBefore? (x y : List Char) :
    ∃ b?, byteBefore? (encodeChars (x ++ y)) (byteLength x) = some b? ∧ OfChar b? x.getLast? := by
  rcases List.eq_nil_or_concat' x with rfl | ⟨x, c, rfl⟩
  · exact ⟨none, rfl, .none⟩
  · have hpos : 0 < byteLength (x ++ [c]) := by
      have hc := c.utf8Size_pos
      rw [byteLength_append, byteLength_cons]
      omega
    have hlast : (encodeChars (x ++ [c])).getLast? =
        some ((encodeChar c).getLast (encodeChar_ne_nil c)) := by
      simp [List.getLast?_append, List.getLast?_eq_some_getLast (encodeChar_ne_nil c)]
    have hget : (encodeChars (x ++ [c] ++ y))[byteLength (x ++ [c]) - 1]? =
        some ((encodeChar c).getLast (encodeChar_ne_nil c)) := by
      rw [encodeChars_append, ← length_encodeChars, List.getElem?_append_left (by
        rw [length_encodeChars]; omega), ← List.getLast?_eq_getElem?, hlast]
    refine ⟨some ((encodeChar c).getLast (encodeChar_ne_nil c)), ?_, ?_⟩
    · rw [byteBefore?, if_neg (Nat.ne_of_gt hpos), hget]
      rfl
    · rw [List.getLast?_concat]
      exact .some (List.getLast_mem _)

/-- Behind a border there is a byte of the next character, or the text ends there. -/
theorem ofChar_getElem? (x y : List Char) :
    OfChar ((encodeChars (x ++ y))[byteLength x]?) y.head? := by
  have hget : (encodeChars (x ++ y))[byteLength x]? = (encodeChars y)[0]? := by
    rw [encodeChars_append, List.getElem?_append_right (by simp), length_encodeChars, Nat.sub_self]
  rw [hget]
  cases y with
  | nil => exact .none
  | cons c y =>
      obtain ⟨b, bs, hbytes, _⟩ := exists_encodeChar_eq_cons c
      rw [encodeChars_cons, hbytes]
      exact .some (by simp [hbytes])

theorem findIdx?_getD_length {α : Type} (p : α → Bool) (l : List α) :
    (l.findIdx? p).getD l.length = (l.takeWhile fun a => !p a).length := by
  induction l with
  | nil => rfl
  | cons a l ih =>
      by_cases ha : p a = true
      · simp [List.findIdx?_cons, ha]
      · rw [List.findIdx?_cons, if_neg ha, List.takeWhile_cons_of_pos (by simpa using ha),
          List.length_cons, List.length_cons, ← ih]
        cases l.findIdx? p <;> rfl

theorem wordEnd?_eq (x y : List Char) :
    wordEnd? (encodeChars (x ++ y)) (byteLength x) =
      some (byteLength (x ++ y.takeWhile fun c => !endsWord c)) := by
  have hrest : bytesFrom? (encodeChars (x ++ y)) (byteLength x) = some (encodeChars y) := by
    rw [bytesFrom?, if_pos (by simp)]
    simp [← length_encodeChars]
  have hword : ((encodeChars y).findIdx? (onByte endsWord)).getD (byteLength y) =
      byteLength (y.takeWhile fun c => !endsWord c) := by
    rw [← length_encodeChars, findIdx?_getD_length,
      asciiOnly_endsWord.reads.not.takeWhile_encodeChars, length_encodeChars]
  rw [wordEnd?, hrest, byteLength_append, ← hword]
  cases hfind : (encodeChars y).findIdx? (onByte endsWord) <;> simp [hfind]

/-- A run with the rest of its shell word. -/
theorem slice?_word {s x y z : List Char} (h : s = x ++ y ++ z) :
    (wordEnd? (encodeChars s) (byteLength (x ++ y))).bind (slice? s (byteLength x)) =
      some (y ++ z.takeWhile fun c => !endsWord c) := by
  have hs : s = x ++ (y ++ z.takeWhile fun c => !endsWord c) ++
      z.dropWhile fun c => !endsWord c := by
    rw [h, List.append_assoc, List.append_assoc, List.append_assoc,
      List.takeWhile_append_dropWhile]
  have hend : wordEnd? (encodeChars s) (byteLength (x ++ y)) =
      some (byteLength (x ++ (y ++ z.takeWhile fun c => !endsWord c))) := by
    rw [h, wordEnd?_eq, List.append_assoc]
  rw [hend]
  exact slice?_between hs

/-- The bytes before and behind a run tell whether it is quoted. -/
theorem isQuoted_eq {before : Option Char} {path t : List Char} {q : Char} {b? : Option UInt8}
    {b : UInt8} (hbefore : OfChar b? before) (hb : b ∈ encodeChar q)
    (hpath : byteLength path = path.length) :
    (onByte isQuote b && b? == some b && decide (root.length < byteLength path)) =
      (⟨before, path, q :: t⟩ : Mention).isQuoted := by
  rw [asciiOnly_isQuote.reads q b hb, hpath]
  by_cases hq : isQuote q = true
  · cases hbefore with
    | none => simp [Mention.isQuoted]
    | @some b' c hb' =>
        have hbeq : (b' == b) = (c == q) := by
          rw [Bool.eq_iff_iff, beq_iff_eq, beq_iff_eq,
            byte_eq_iff_of_ascii (asciiOnly_isQuote q hq) hb' hb]
        simp [Mention.isQuoted, hbeq]
  · cases hbefore <;> simp [Mention.isQuoted, hq]

section

variable {s : List Char} {span : Span} {m : Mention}

theorem Span.Marks.byteLength_path (h : span.Marks s m) : byteLength m.path = m.path.length :=
  byteLength_of_ascii fun c hc => asciiOnly_isPathChar c (h.isPathChar_of_mem c hc)

theorem Span.Marks.reading?_eq (h : span.Marks s m) {before : Option UInt8}
    (hbefore : OfChar before m.before) : span.reading? s before = some m.reading := by
  have hlength := h.byteLength_path
  obtain ⟨⟨x, hs, _, rfl⟩, _, _⟩ := h
  obtain ⟨front, path, after⟩ := m
  have hrun : slice? s (byteLength x) (byteLength (x ++ path)) = some path := slice?_between hs
  have hnext := ofChar_getElem? (x ++ path) after
  rw [← hs] at hnext
  rw [Span.reading?]
  simp only [hrun, Option.bind_eq_bind, Option.bind_some]
  cases after with
  | nil =>
      generalize (encodeChars s)[byteLength (x ++ path)]? = next at hnext
      cases hnext
      rfl
  | cons q t =>
      have hword := slice?_word hs
      generalize (encodeChars s)[byteLength (x ++ path)]? = next at hnext
      cases hnext with
      | @some b _ hb =>
          simp only [isQuoted_eq (t := t) hbefore hb hlength, hword,
            asciiOnly_isExpansion.reads q b hb, Mention.reading_cons]
          by_cases hquoted : (⟨front, path, q :: t⟩ : Mention).isQuoted = true
          · simp [hquoted, Mention.trimmed]
          · by_cases hq : isExpansion q = true
            · simp [hquoted, hq]
            · simp [hquoted, hq, Mention.trimmed]

/-- A reading is longer than the directory in bytes exactly when it is in characters: it is ASCII
throughout, or longer than its run. -/
theorem Span.Marks.root_lt_iff (h : span.Marks s m) :
    root.length < byteLength m.reading ↔ root.length < m.reading.length := by
  rcases m.reading_cases with htrimmed | ⟨c, w, hword⟩
  · have hascii : byteLength m.trimmed = m.trimmed.length := by
      refine byteLength_of_ascii fun c hc => asciiOnly_isPathChar c (h.isPathChar_of_mem c ?_)
      have hsuffix := List.dropWhile_suffix isTrailing (l := m.path.reverse)
      exact List.mem_reverse.mp (hsuffix.subset (List.mem_reverse.mp hc))
    rw [htrimmed, hascii]
  · have hlength : root.length < m.reading.length := by
      have hroot := h.root_le
      rw [hword, List.length_append, List.length_cons]
      omega
    have hbytes := length_le_byteLength m.reading
    constructor
    · intro _
      exact hlength
    · intro _
      omega

theorem Span.Marks.path?_eq (h : span.Marks s m) : span.path? s = some m.path? := by
  obtain ⟨x, hs, hbefore, hspan⟩ := h.exists_front
  obtain ⟨before, hbyte, hchar⟩ := exists_byteBefore? x (m.path ++ m.after)
  rw [← List.append_assoc, ← hs] at hbyte
  rw [← hbefore] at hchar
  have hstart : span.start = byteLength x := by rw [hspan]
  have hname := hchar.any_eq asciiOnly_isNameChar.reads
  simp only [Span.path?, hstart, hbyte, h.reading?_eq hchar, Option.bind_eq_bind, Option.bind_some,
    hname, h.root_lt_iff, Mention.path?]
  by_cases hinside : m.before.any isNameChar = true
  · simp [hinside]
  · by_cases hlong : root.length < m.reading.length
    · simp [hinside, hlong]
    · simp [hinside, hlong]

end

theorem mapM_path? {s : List Char} {spans : List Span} {ms : List Mention}
    (h : List.Forall₂ (Span.Marks s) spans ms) :
    spans.mapM (Span.path? s) = some (ms.map Mention.path?) := by
  induction h with
  | nil => rfl
  | cons hm _ ih => simp [List.mapM_cons, hm.path?_eq, ih]

theorem paths?_eq (command : String) : paths? command = some (paths command) := by
  have hspans := forall₂_spansFrom (collapse command.toList) none _ [] rfl rfl
  rw [byteLength_nil] at hspans
  rw [paths?]
  simp only [collapse] at hspans ⊢
  simp [mapM_path? hspans, paths, collapse, List.filterMap_map]

theorem verify?_eq (known : Known) (a : Action) : verify? known a = some (verify known a) := by
  unfold verify? verify
  cases a.kind with
  | text => rfl
  | command =>
      simp only [paths?_eq, Option.bind_eq_bind, Option.bind_some, unknownPaths]
      cases (paths a.content).filter fun p => !known.allows p <;> rfl

/-- **Nothing that is generated, and no command, is left without a result**: every slice and every
byte that the decoder and the guard ask for is there, so its positions are in order, within the text
and between characters (`exists_slice?_iff`). -/
theorem every_slice_exists (raw : String) (command : String) (known : Known) (a : Action) :
    Reply.Sliced.decode? raw = some (Reply.decode raw) ∧ paths? command = some (paths command) ∧
      verify? known a = some (verify known a) :=
  ⟨Reply.Sliced.decode?_eq raw, paths?_eq command, verify?_eq known a⟩

end InstallAssistant.Device.Sliced
