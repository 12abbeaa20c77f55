import InstallAssistant.Proofs.Markup
import InstallAssistant.Proofs.Text.Slice
import Mathlib.Data.List.Find

/-!
# InstallAssistant.Proofs.Markup.Slice

Tags found byte by byte.  The lexer remembers where the last opening bracket is
and cuts the name out of the text when it meets the closing one; it finds the tags
of `tags`, and the slice for the name is always there (`Lexer.tags?_eq`).

The run is followed character by character.  What has been read since the bracket
that the lexer remembers is pending (`Lexer.Pending`): it may still become a tag.
-/

namespace InstallAssistant.Markup

open Text

/-! ## positions of pieces -/

@[simp] theorem tagsFrom_append (i : Nat) (ps qs : List Piece) :
    tagsFrom i (ps ++ qs) = tagsFrom i ps ++ tagsFrom (i + byteLength (spell ps)) qs := by
  induction ps generalizing i with
  | nil => rfl
  | cons p ps ih =>
      cases p with
      | char c => simp [tagsFrom, ih, Piece.spell, Nat.add_assoc]
      | tag name => simp [tagsFrom, ih, Nat.add_assoc]

theorem tagsFrom_eq_nil {ps : List Piece} (h : ∀ name, .tag name ∉ ps) (i : Nat) :
    tagsFrom i ps = [] := by
  rw [List.eq_nil_iff_forall_not_mem]
  intro t ht
  exact h t.name ((mem_map_name_tagsFrom i).mp (List.mem_map_of_mem ht))

/-- The tags of a text behind a beginning that has none. -/
theorem tagsFrom_scan_append {x s : List Char} (hx : '>' ∉ x) (h : Closed x ∨ Fresh s) (i : Nat) :
    tagsFrom i (scan (x ++ s)) = tagsFrom (i + byteLength x) (scan s) := by
  rw [scan_append h, tagsFrom_append, tagsFrom_eq_nil (tag_notMem_scan hx), spell_scan,
    List.nil_append]

@[simp] theorem utf8Size_open : '<'.utf8Size = 1 := rfl

@[simp] theorem utf8Size_close : '>'.utf8Size = 1 := rfl

/-- What stands in brackets is a tag, if it is a name. -/
theorem tagsFrom_scan_close {name : List Char} (h : ∀ c ∈ name, isTagChar c = true) (i : Nat)
    (s : List Char) :
    tagsFrom i (scan ('<' :: name ++ '>' :: s)) =
      (if isTagName name then some (Tag.mk name i (i + byteLength ('<' :: name) + 1)) else none).toList
        ++ tagsFrom (i + byteLength ('<' :: name) + 1) (scan s) := by
  by_cases hname : isTagName name = true
  · have hspell : '<' :: name ++ '>' :: s = (Piece.tag name).spell ++ s := by simp [Piece.spell]
    rw [hspell, scan_tag hname h, tagsFrom, if_pos hname]
    simp [Piece.spell, Nat.add_assoc]
  · have hopen : '<' ∉ name ++ ['>'] := by
      have hin : '<' ∉ name := fun hmem => absurd (h '<' hmem) (by decide)
      simp [hin]
    have hscan : scan ('<' :: name ++ '>' :: s) = ('<' :: name ++ ['>']).map .char ++ scan s := by
      have happ : name ++ '>' :: s = name ++ ['>'] ++ s := by simp
      rw [List.cons_append, scan_bracket, happ, scan_chars_append hopen]
      · rfl
      · intro rest _
        rw [takeWhile_tagChars h]
        exact Bool.eq_false_iff.mpr hname
    rw [hscan, tagsFrom_append, tagsFrom_eq_nil (by simp), spell_map_char, if_neg hname]
    simp [Nat.add_assoc]

/-- A character that tags do not have, and that closes none, ends what might have become one. -/
theorem tagsFrom_scan_leave {name : List Char} (h : ∀ c ∈ name, isTagChar c = true) {c : Char}
    (hopen : c ≠ '<') (hclose : c ≠ '>') (hc : isTagChar c = false) (i : Nat) (s : List Char) :
    tagsFrom i (scan ('<' :: name ++ c :: s)) =
      tagsFrom (i + byteLength ('<' :: name ++ [c])) (scan s) := by
  have hnone : '>' ∉ '<' :: name ++ [c] := by
    have hin : '>' ∉ name := fun hmem => absurd (h '>' hmem) (by decide)
    simp [hin, Ne.symm hclose]
  have hclosed : Closed ('<' :: name ++ [c]) := by
    intro d hd
    rw [List.getLast?_append, List.getLast?_singleton] at hd
    cases hd
    exact ⟨hopen, hc⟩
  have hsplit : '<' :: name ++ c :: s = '<' :: name ++ [c] ++ s := by simp
  rw [hsplit, tagsFrom_scan_append hnone (.inl hclosed)]

/-! ## the lexer -/

/-- Where the lexer is: outside of tags, or behind the bracket at `start`. -/
inductive Lexer
  | text
  | tag (start : Nat)

namespace Lexer

/-- The lexer at the byte `b`, which stands at `i`: its next state, and the tag that it completes. -/
def step? (s : List Char) (i : Nat) (b : UInt8) (state : Lexer) : Option (Lexer × Option Tag) :=
  if onByte (· == '<') b then some (.tag i, none)
  else
    match state with
    | .text => some (.text, none)
    | .tag start =>
      if onByte (· == '>') b then do
        let name ← slice? s (start + 1) i
        return (.text, if isTagName name then some ⟨name, start, i + 1⟩ else none)
      else if onByte isTagChar b then some (.tag start, none)
      else some (.text, none)

/-- The tags that the lexer completes from the position `i` on. -/
def run? (s : List Char) (state : Lexer) (i : Nat) : List UInt8 → Option (List Tag)
  | [] => some []
  | b :: bytes => do
    let (next, found) ← state.step? s i b
    let tags ← next.run? s (i + 1) bytes
    return found.toList ++ tags

def tags? (s : List Char) : Option (List Tag) := text.run? s 0 (Utf8.encodeChars s)

/-! ## single steps -/

theorem reads_open : Reads (onByte (· == '<')) (· == '<') := (asciiOnly_beq (by decide)).reads

theorem reads_close : Reads (onByte (· == '>')) (· == '>') := (asciiOnly_beq (by decide)).reads

theorem asciiOnly_isTagChar : AsciiOnly isTagChar :=
  asciiOnly_of_mem (l := ['_', '-', '|', '/', ':', '.']) (by simp) fun c hc => by
    simpa [isTagChar, or_assoc] using hc

theorem reads_tagChar : Reads (onByte isTagChar) isTagChar := asciiOnly_isTagChar.reads

section

variable {s : List Char} {state next : Lexer} {i : Nat}

theorem run?_cons {b : UInt8} {found : Option Tag} (h : state.step? s i b = some (next, found))
    (bytes : List UInt8) :
    state.run? s i (b :: bytes) = (next.run? s (i + 1) bytes).map (found.toList ++ ·) := by
  cases hrest : next.run? s (i + 1) bytes <;> simp [run?, h, hrest]

/-- A step that completes no tag. -/
theorem run?_cons_none {b : UInt8} (h : state.step? s i b = some (next, none))
    (bytes : List UInt8) : state.run? s i (b :: bytes) = next.run? s (i + 1) bytes := by
  rw [run?_cons h]
  exact Option.map_id'

/-- Bytes that do not move the lexer. -/
theorem run?_append_of_stay {bs : List UInt8}
    (h : ∀ i, ∀ b ∈ bs, state.step? s i b = some (state, none)) (bytes : List UInt8) :
    state.run? s i (bs ++ bytes) = state.run? s (i + bs.length) bytes := by
  induction bs generalizing i with
  | nil => rfl
  | cons b bs ih =>
      rw [List.cons_append, run?_cons_none (h i b List.mem_cons_self),
        ih fun i b hb => h i b (List.mem_cons_of_mem _ hb), List.length_cons]
      congr 1
      omega

theorem run?_open (bytes : List UInt8) :
    state.run? s i (Utf8.encodeChar '<' ++ bytes) = (tag i).run? s (i + 1) bytes :=
  run?_cons_none rfl bytes

theorem run?_text {c : Char} (hc : c ≠ '<') (bytes : List UInt8) :
    text.run? s i (Utf8.encodeChar c ++ bytes) = text.run? s (i + c.utf8Size) bytes := by
  rw [← length_encodeChar]
  refine run?_append_of_stay (fun i b hb => ?_) bytes
  simp [step?, reads_open c b hb, hc]

theorem run?_tagChar {c : Char} (hc : isTagChar c = true) (start : Nat) (bytes : List UInt8) :
    (tag start).run? s i (Utf8.encodeChar c ++ bytes) =
      (tag start).run? s (i + c.utf8Size) bytes := by
  have hopen : c ≠ '<' := fun h => absurd hc (by rw [h]; decide)
  have hclose : c ≠ '>' := fun h => absurd hc (by rw [h]; decide)
  rw [← length_encodeChar]
  refine run?_append_of_stay (fun i b hb => ?_) bytes
  simp [step?, reads_open c b hb, reads_close c b hb, reads_tagChar c b hb, hopen, hclose, hc]

/-- Any other character ends what might have become a tag. -/
theorem run?_leave {c : Char} (hopen : c ≠ '<') (hclose : c ≠ '>') (hc : isTagChar c = false)
    (start : Nat) (bytes : List UInt8) :
    (tag start).run? s i (Utf8.encodeChar c ++ bytes) = text.run? s (i + c.utf8Size) bytes := by
  obtain ⟨b, bs, hbytes, _⟩ := exists_encodeChar_eq_cons c
  have hb : b ∈ Utf8.encodeChar c := by simp [hbytes]
  have hstep : (tag start).step? s i b = some (text, none) := by
    simp [step?, reads_open c b hb, reads_close c b hb, reads_tagChar c b hb, hopen, hclose, hc]
  have hstay : ∀ i, ∀ d ∈ bs, text.step? s i d = some (text, none) := by
    intro i d hd
    simp [step?, reads_open c d (by simp [hbytes, hd]), hopen]
  rw [← length_encodeChar, hbytes, List.cons_append, run?_cons_none hstep, run?_append_of_stay hstay,
    List.length_cons]
  congr 1
  omega

theorem run?_close {start : Nat} {name : List Char} (h : slice? s (start + 1) i = some name)
    (bytes : List UInt8) :
    (tag start).run? s i (Utf8.encodeChar '>' ++ bytes) =
      (text.run? s (i + 1) bytes).map
        ((if isTagName name then some (Tag.mk name start (i + 1)) else none).toList ++ ·) := by
  have hstep : (tag start).step? s i (UInt8.ofNat 0x3E) =
      some (text, if isTagName name then some ⟨name, start, i + 1⟩ else none) := by
    simp only [step?, h]
    rfl
  exact run?_cons hstep bytes

end

/-! ## runs -/

/-- Behind `front`, the lexer has read characters that may still become a tag. -/
inductive Pending : List Char → Lexer → List Char → Prop
  | text (front : List Char) : Pending front .text []
  | tag (front : List Char) {name : List Char} : (∀ c ∈ name, isTagChar c = true) →
      Pending front (.tag (byteLength front)) ('<' :: name)

theorem Pending.close_notMem {front pending : List Char} {state : Lexer}
    (h : Pending front state pending) : '>' ∉ pending := by
  cases h with
  | text => simp
  | tag hname =>
      intro hmem
      have hin := (List.mem_cons.mp hmem).resolve_left (by decide)
      exact absurd (hname '>' hin) (by decide)

theorem slice?_pending (front name rest : List Char) :
    slice? (front ++ '<' :: name ++ '>' :: rest) (byteLength front + 1)
      (byteLength (front ++ '<' :: name)) = some name := by
  have hslice := slice?_append (front ++ ['<']) name ('>' :: rest)
  simpa [Nat.add_assoc] using hslice

/-- **The lexer finds the tags of the scanner**, and no name is missing in the text. -/
theorem run?_of_pending {front pending : List Char} {state : Lexer}
    (h : Pending front state pending) (rest : List Char) :
    state.run? (front ++ pending ++ rest) (byteLength (front ++ pending))
        (Utf8.encodeChars rest) =
      some (tagsFrom (byteLength front) (scan (pending ++ rest))) := by
  induction rest generalizing front pending state with
  | nil =>
      rw [List.append_nil pending, tagsFrom_eq_nil (tag_notMem_scan h.close_notMem)]
      rfl
  | cons c rest ih =>
      rw [encodeChars_cons]
      by_cases hopen : c = '<'
      · -- what is pending becomes no tag
        subst hopen
        have hrun := ih (.tag (front ++ pending) (List.forall_mem_nil _))
        rw [run?_open, tagsFrom_scan_append h.close_notMem (.inr (fresh_bracket rest)),
          ← byteLength_append]
        simpa [Nat.add_assoc] using hrun
      cases h with
      | text =>
          have hrun := ih (.text (front ++ [c]))
          rw [run?_text hopen, List.nil_append, scan_char hopen, tagsFrom]
          simpa using hrun
      | @tag name hname =>
          by_cases hclose : c = '>'
          · subst hclose
            have hrun := ih (.text (front ++ '<' :: name ++ ['>']))
            have hrest : text.run? (front ++ '<' :: name ++ '>' :: rest)
                (byteLength (front ++ '<' :: name) + 1) (Utf8.encodeChars rest) =
                  some (tagsFrom (byteLength (front ++ '<' :: name) + 1) (scan rest)) := by
              simpa [Nat.add_assoc] using hrun
            rw [run?_close (slice?_pending front name rest), hrest, tagsFrom_scan_close hname,
              byteLength_append]
            rfl
          by_cases hc : isTagChar c = true
          · have hname' : ∀ d ∈ name ++ [c], isTagChar d = true := by
              simpa [or_imp, forall_and, hc] using hname
            have hrun := ih (.tag front hname')
            rw [run?_tagChar hc]
            simpa [Nat.add_assoc] using hrun
          · rw [Bool.not_eq_true] at hc
            have hrun := ih (.text (front ++ '<' :: name ++ [c]))
            rw [run?_leave hopen hclose hc, tagsFrom_scan_leave hname hopen hclose hc]
            simpa [Nat.add_assoc] using hrun

/-- Every slice that the lexer takes is there, and its tags are those of the text. -/
theorem tags?_eq (s : List Char) : tags? s = some (tags s) :=
  run?_of_pending (.text []) s

end Lexer

/-! ## searching -/

/-- The first tag of a name that does not start before a position. -/
def findTag? (name : String) (start : Nat) (tags : List Tag) : Option Tag :=
  tags.find? fun t => decide (start ≤ t.start) && t.name == name.toList

/-- A tag that is written behind a text. -/
def tagAfter (x : List Char) (name : List Char) : Tag :=
  ⟨name, byteLength x, byteLength (x ++ (Piece.tag name).spell)⟩

theorem tagsFrom_cons_char (x : List Char) (c : Char) (ps : List Piece) :
    tagsFrom (byteLength x) (.char c :: ps) = tagsFrom (byteLength (x ++ [c])) ps := by
  simp [tagsFrom]

theorem tagsFrom_cons_tag (x name : List Char) (ps : List Piece) :
    tagsFrom (byteLength x) (.tag name :: ps) =
      tagAfter x name :: tagsFrom (byteLength (x ++ (Piece.tag name).spell)) ps := by
  simp [tagsFrom, tagAfter]

/-- A tag lies within the pieces that it is one of. -/
theorem bounds_of_mem_tagsFrom {i : Nat} {ps : List Piece} {t : Tag} (h : t ∈ tagsFrom i ps) :
    i ≤ t.start ∧ t.start < t.stop ∧ t.stop ≤ i + byteLength (spell ps) := by
  induction ps generalizing i with
  | nil => cases h
  | cons p ps ih =>
      cases p with
      | char c =>
          have hin := ih h
          simp only [spell_cons, Piece.spell, byteLength_append, byteLength_cons, byteLength_nil]
          omega
      | tag name =>
          simp only [spell_cons, byteLength_append]
          rcases List.mem_cons.mp h with rfl | hrest
          · simp only [Piece.spell, byteLength_cons, utf8Size_open]
            omega
          · have hin := ih hrest
            omega

theorem start_of_mem_tagsFrom {i : Nat} {ps : List Piece} {t : Tag} (h : t ∈ tagsFrom i ps) :
    i ≤ t.start ∧ t.start < i + byteLength (spell ps) := by
  have hbounds := bounds_of_mem_tagsFrom h
  omega

/-- A search from a position on passes over the pieces before it. -/
theorem find?_tagsFrom_append (p : Tag → Bool) (i : Nat) (ps qs : List Piece) :
    (tagsFrom i (ps ++ qs)).find?
        (fun t => decide (i + byteLength (spell ps) ≤ t.start) && p t) =
      (tagsFrom (i + byteLength (spell ps)) qs).find? p := by
  have hfront : (tagsFrom i ps).find?
      (fun t => decide (i + byteLength (spell ps) ≤ t.start) && p t) = none := by
    rw [List.find?_eq_none]
    intro t ht
    have hlt := (start_of_mem_tagsFrom ht).2
    simp [Nat.not_le.mpr hlt]
  have hrest : (tagsFrom (i + byteLength (spell ps)) qs).find?
      (fun t => decide (i + byteLength (spell ps) ≤ t.start) && p t) =
        (tagsFrom (i + byteLength (spell ps)) qs).find? p := by
    refine List.find?_congr fun t ht => ?_
    rw [decide_eq_true (start_of_mem_tagsFrom ht).1, Bool.true_and]
  rw [tagsFrom_append, List.find?_append, hfront, hrest, Option.none_or]

theorem find?_name_tagsFrom (name : String) (x : List Char) (ps : List Piece) :
    (tagsFrom (byteLength x) ps).find? (fun t => t.name == name.toList) =
      (cutAt? name ps).map fun (front, _) => tagAfter (x ++ spell front) name.toList := by
  induction ps generalizing x with
  | nil => rfl
  | cons p ps ih =>
      cases p with
      | char c =>
          rw [tagsFrom_cons_char, ih, cutAt?, if_neg (by simp), Option.map_map]
          simp [Function.comp_def, Piece.spell]
      | tag n =>
          rw [tagsFrom_cons_tag]
          by_cases hn : n = name.toList
          · subst hn
            simp [tagAfter]
          · rw [List.find?_cons_of_neg (by simpa [tagAfter] using hn), ih, cutAt?,
              if_neg (by simpa using hn), Option.map_map]
            simp [Function.comp_def]

/-- **Tags are found where pieces are cut**: the first tag of a name is the one at which the text is
cut. -/
theorem findTag?_start (name : String) (s : List Char) :
    findTag? name 0 (tags s) =
      (cutAt? name (scan s)).map fun (front, _) => tagAfter (spell front) name.toList := by
  have hfind := find?_name_tagsFrom name [] (scan s)
  simpa [findTag?, tags] using hfind

section

variable {first : String} {s : List Char} {front rest : List Piece}

/-- Behind the first tag of a name, the tags of the rest are found. -/
theorem find?_behind (h : cutAt? first (scan s) = some (front, rest)) (p : Tag → Bool) :
    (tags s).find?
        (fun t => decide ((tagAfter (spell front) first.toList).stop ≤ t.start) && p t) =
      (tagsFrom (tagAfter (spell front) first.toList).stop rest).find? p := by
  have hscan : scan s = front ++ [.tag first.toList] ++ rest := by
    rw [(cutAt?_eq_some_iff.mp h).1, List.append_assoc, List.singleton_append]
  have hfind := find?_tagsFrom_append p 0 (front ++ [.tag first.toList]) rest
  rw [← hscan, Nat.zero_add, spell_append, spell_cons, spell_nil, List.append_nil] at hfind
  exact hfind

theorem findTag?_behind (h : cutAt? first (scan s) = some (front, rest)) (name : String) :
    findTag? name (tagAfter (spell front) first.toList).stop (tags s) =
      (cutAt? name rest).map fun (inside, _) =>
        tagAfter (spell front ++ (Piece.tag first.toList).spell ++ spell inside) name.toList := by
  rw [findTag?, find?_behind h]
  exact find?_name_tagsFrom name _ rest

end

end InstallAssistant.Markup
