import InstallAssistant.Proofs.Markup.Slice

/-!
# InstallAssistant.Proofs.Markup.Span

Where the tags of a text are, said of its bytes.  A tag stands wherever the bytes have
an opening bracket, a name and a closing bracket in a row (`Tag.Stands`), and those are
exactly the tags that are reported (`mem_tags_iff_stands`).  They are reported from left
to right and do not overlap (`pairwise_tagsFrom`), those of two texts side by side are
those of each (`tags_append`), and stripping takes out their bytes and no others
(`encodeChars_strip`).
-/

namespace InstallAssistant.Markup

open Text
open Utf8 (encodeChar encodeChars)

/-! ## names in bytes -/

/-- The bytes of ASCII letters. -/
def isLetterByte (b : UInt8) : Bool := (0x41 ≤ b && b ≤ 0x5A) || (0x61 ≤ b && b ≤ 0x7A)

/-- The bytes of letters, digits and `_ - | / : .`. -/
def isTagByte (b : UInt8) : Bool :=
  isLetterByte b || (0x30 ≤ b && b ≤ 0x39) || [0x5F, 0x2D, 0x7C, 0x2F, 0x3A, 0x2E].contains b

/-- A tag that stands in bytes: brackets at both ends, and a name between them. -/
structure Tag.Stands (bytes : List UInt8) (t : Tag) : Prop where
  opening : bytes[t.start]? = some 0x3C
  closing : bytes[t.stop - 1]? = some 0x3E
  between : (bytes.take (t.stop - 1)).drop (t.start + 1) = encodeChars t.name
  ne_nil : t.name ≠ []
  tagBytes : ∀ b ∈ encodeChars t.name, isTagByte b = true
  /-- Behind any slashes, the name begins with a letter or a bar. -/
  body : ∃ b rest, (encodeChars t.name).dropWhile (· == 0x2F) = b :: rest ∧
    (isLetterByte b = true ∨ b = 0x7C)

theorem onByte_eq {f : Char → Bool} {g : UInt8 → Bool}
    (h : ∀ n < 256, onByte f (UInt8.ofNat n) = g (UInt8.ofNat n)) : onByte f = g := by
  funext b
  have hb := h b.toNat b.toNat_lt
  rwa [UInt8.ofNat_toNat] at hb

theorem reads_tagByte : Reads isTagByte isTagChar := by
  have heq : onByte isTagChar = isTagByte := onByte_eq (by decide +kernel)
  exact heq ▸ Lexer.reads_tagChar

theorem reads_letterOrBar :
    Reads (fun b => isLetterByte b || b == 0x7C) fun c => c.isAlpha || c == '|' := by
  have hascii : AsciiOnly fun c => c.isAlpha || c == '|' := by
    refine asciiOnly_of_mem (l := ['|']) (by simp) fun c hc => ?_
    rcases Bool.or_eq_true_iff.mp hc with halpha | hbar
    · exact .inl (by rw [Char.isAlphanum, halpha, Bool.true_or])
    · exact .inr (by simpa using hbar)
  have heq : onByte (fun c => c.isAlpha || c == '|') = fun b => isLetterByte b || b == 0x7C :=
    onByte_eq (by decide +kernel)
  exact heq ▸ hascii.reads

theorem reads_slash : Reads (· == 0x2F) (· == '/') := by
  have heq : onByte (· == '/') = (· == 0x2F) := onByte_eq (by decide +kernel)
  exact heq ▸ (asciiOnly_beq (by decide)).reads

/-- A name, by its bytes. -/
theorem isTagName_iff {name : List Char} :
    isTagName name = true ↔ ∃ b rest, (encodeChars name).dropWhile (· == 0x2F) = b :: rest ∧
      (isLetterByte b = true ∨ b = 0x7C) := by
  rw [reads_slash.dropWhile_encodeChars, isTagName]
  cases name.dropWhile (· == '/') with
  | nil => simp
  | cons c cs =>
      obtain ⟨b, bs, hbytes, _⟩ := exists_encodeChar_eq_cons c
      have hread := reads_letterOrBar c b (by simp [hbytes])
      simp only [encodeChars_cons, hbytes, List.cons_append, List.cons.injEq, exists_and_right]
      constructor
      · intro h
        exact ⟨b, ⟨_, rfl, rfl⟩, by simpa using hread.trans h⟩
      · rintro ⟨_, ⟨_, rfl, _⟩, h⟩
        exact hread.symm.trans (by simpa using h)

/-! ## where tags stand -/

theorem byteLength_tag (name : List Char) :
    byteLength (Piece.tag name).spell = byteLength name + 2 := by
  simp only [Piece.spell, byteLength_cons, byteLength_append, byteLength_nil, utf8Size_open,
    utf8Size_close]
  omega

theorem encodeChar_of_ascii {d : Char} (hd : d.toNat < 0x80) :
    encodeChar d = [UInt8.ofNat d.toNat] := by
  rw [encodeChar, if_pos hd]

/-- An ASCII character is first where its byte is. -/
theorem exists_eq_cons_of_head? {s : List Char} {d : Char} (hd : d.toNat < 0x80)
    (h : (encodeChars s).head? = some (UInt8.ofNat d.toNat)) : ∃ y, s = d :: y := by
  cases s with
  | nil => contradiction
  | cons c y =>
      obtain ⟨b, bs, hbytes, _⟩ := exists_encodeChar_eq_cons c
      rw [encodeChars_cons, hbytes] at h
      obtain rfl : b = UInt8.ofNat d.toNat := Option.some.inj h
      have hc : c = d := (byte_eq_iff_of_ascii hd (b := UInt8.ofNat d.toNat) (by simp [hbytes])
        (by simp [encodeChar_of_ascii hd])).mp rfl
      exact ⟨y, by rw [hc]⟩

/-- An ASCII character is found where its byte is. -/
theorem exists_of_getElem?_encodeChars {s : List Char} {i : Nat} {d : Char} (hd : d.toNat < 0x80)
    (h : (encodeChars s)[i]? = some (UInt8.ofNat d.toNat)) :
    ∃ x y, s = x ++ d :: y ∧ i = byteLength x := by
  obtain ⟨b, bs, hlead, hcontinuation, _⟩ := exists_encodeChar_eq_cons d
  obtain rfl : UInt8.ofNat d.toNat = b :=
    (List.cons.inj ((encodeChar_of_ascii hd).symm.trans hlead)).1
  have hborder : isBorder (encodeChars s) i = true := by
    rw [isBorder_of_getElem? h, hcontinuation]
    rfl
  obtain ⟨x, y, rfl, rfl⟩ := isBorder_encodeChars_iff.mp hborder
  have hhead : (encodeChars y).head? = some (UInt8.ofNat d.toNat) := by
    rwa [encodeChars_append, List.getElem?_append_right (by simp), length_encodeChars,
      Nat.sub_self, ← List.head?_eq_getElem?] at h
  obtain ⟨y, rfl⟩ := exists_eq_cons_of_head? hd hhead
  exact ⟨x, y, rfl, rfl⟩

theorem mem_tagsFrom_iff {i : Nat} {ps : List Piece} {t : Tag} :
    t ∈ tagsFrom i ps ↔ ∃ front rest, ps = front ++ .tag t.name :: rest ∧
      t.start = i + byteLength (spell front) ∧
        t.stop = t.start + byteLength (Piece.tag t.name).spell := by
  constructor
  · intro h
    induction ps generalizing i with
    | nil => cases h
    | cons p ps ih =>
        cases p with
        | char c =>
            obtain ⟨front, rest, hps, hstart, hstop⟩ := ih h
            refine ⟨.char c :: front, rest, by rw [hps]; rfl, ?_, hstop⟩
            simp only [hstart, spell_cons, Piece.spell, byteLength_append, byteLength_cons,
              byteLength_nil]
            omega
        | tag name =>
            rcases List.mem_cons.mp h with rfl | hrest
            · exact ⟨[], ps, rfl, by simp, rfl⟩
            · obtain ⟨front, rest, hps, hstart, hstop⟩ := ih hrest
              refine ⟨.tag name :: front, rest, by rw [hps]; rfl, ?_, hstop⟩
              simp only [hstart, spell_cons, byteLength_append]
              omega
  · rintro ⟨front, rest, rfl, hstart, hstop⟩
    rw [tagsFrom_append, tagsFrom]
    refine List.mem_append_right _ (List.mem_cons.mpr (.inl ?_))
    rw [← hstart, ← hstop]

/-- **Which tags are reported**: those that are written, each in its place. -/
theorem mem_tags_iff {s : List Char} {t : Tag} :
    t ∈ tags s ↔ isTagName t.name = true ∧ (∀ c ∈ t.name, isTagChar c = true) ∧
      ∃ x y, s = x ++ (Piece.tag t.name).spell ++ y ∧ t.start = byteLength x ∧
        t.stop = t.start + byteLength (Piece.tag t.name).spell := by
  rw [tags, mem_tagsFrom_iff]
  simp only [Nat.zero_add]
  constructor
  · rintro ⟨front, rest, hscan, hstart, hstop⟩
    obtain ⟨hname, hchars, _⟩ := tag_mem_scan_iff.mp
      (hscan ▸ List.mem_append_right front List.mem_cons_self : .tag t.name ∈ scan s)
    refine ⟨hname, hchars, spell front, spell rest, ?_, hstart, hstop⟩
    rw [← spell_scan s, hscan, spell_append, spell_cons, List.append_assoc]
  · rintro ⟨hname, hchars, x, y, rfl, hstart, hstop⟩
    have hfresh : Fresh ((Piece.tag t.name).spell ++ y) := fresh_bracket _
    refine ⟨scan x, scan y, ?_, by rw [spell_scan, hstart], hstop⟩
    rw [List.append_assoc, scan_append (.inr hfresh), scan_tag hname hchars]

/-- The bytes of a text with a tag in it. -/
theorem encodeChars_tag (x y name : List Char) :
    encodeChars (x ++ (Piece.tag name).spell ++ y) =
      encodeChars x ++ 0x3C :: (encodeChars name ++ 0x3E :: encodeChars y) := by
  have hopening : encodeChar '<' = [0x3C] := rfl
  have hclosing : encodeChar '>' = [0x3E] := rfl
  simp [Piece.spell, hopening, hclosing]

theorem stands_of_isTagName {name : List Char} (hname : isTagName name = true)
    (hchars : ∀ c ∈ name, isTagChar c = true) (x y : List Char) :
    Tag.Stands (encodeChars (x ++ (Piece.tag name).spell ++ y)) (tagAfter x name) := by
  have hstop : (tagAfter x name).stop - 1 = (encodeChars x ++ 0x3C :: encodeChars name).length := by
    rw [tagAfter, byteLength_append, byteLength_tag]
    simp
  have hstart : (tagAfter x name).start = (encodeChars x).length :=
    (length_encodeChars x).symm
  have hbytes : encodeChars (x ++ (Piece.tag name).spell ++ y) =
      encodeChars x ++ 0x3C :: encodeChars name ++ 0x3E :: encodeChars y := by
    rw [encodeChars_tag, List.append_assoc, List.cons_append]
  constructor
  case opening =>
    rw [hstart, encodeChars_tag]
    simp
  case closing =>
    rw [hstop, hbytes]
    simp
  case between =>
    have hfront : encodeChars x ++ 0x3C :: encodeChars name =
        encodeChars x ++ [0x3C] ++ encodeChars name := by simp
    have hlength : (encodeChars x).length + 1 = (encodeChars x ++ [0x3C]).length := by simp
    rw [hstop, hstart, hbytes, List.take_left, hfront, hlength, List.drop_left]
    rfl
  case ne_nil =>
    rintro rfl
    contradiction
  case tagBytes =>
    intro b hb
    obtain ⟨c, hc, hbc⟩ := List.mem_flatMap.mp hb
    exact (reads_tagByte c b hbc).trans (hchars c hc)
  case body => exact isTagName_iff.mp hname

/-- A tag cuts the bytes that it stands in. -/
theorem Tag.Stands.exists_bytes_eq {bytes : List UInt8} {t : Tag} (h : t.Stands bytes) :
    ∃ xs ys, bytes = xs ++ 0x3C :: (encodeChars t.name ++ 0x3E :: ys) ∧ t.start = xs.length ∧
      t.stop = t.start + byteLength (Piece.tag t.name).spell := by
  obtain ⟨hstart, hopening⟩ := List.getElem?_eq_some_iff.mp h.opening
  obtain ⟨hstop, hclosing⟩ := List.getElem?_eq_some_iff.mp h.closing
  have hlength := congrArg List.length h.between
  rw [List.length_drop, List.length_take_of_le hstop.le, length_encodeChars] at hlength
  have hpos : 0 < byteLength t.name :=
    Nat.lt_of_lt_of_le (List.length_pos_iff.mpr h.ne_nil) (length_le_byteLength _)
  have hback : bytes.drop (t.stop - 1) = 0x3E :: bytes.drop (t.stop - 1 + 1) := by
    rw [List.drop_eq_getElem_cons hstop, hclosing]
  have hname : bytes.drop (t.start + 1) = encodeChars t.name ++ bytes.drop (t.stop - 1) := by
    have hle : t.start + 1 ≤ (bytes.take (t.stop - 1)).length := by
      rw [List.length_take_of_le hstop.le]
      omega
    rw [← h.between, ← List.drop_append_of_le_length hle, List.take_append_drop]
  refine ⟨bytes.take t.start, bytes.drop (t.stop - 1 + 1), ?_, ?_, ?_⟩
  · rw [← hback, ← hname, ← hopening, ← List.drop_eq_getElem_cons hstart, List.take_append_drop]
  · exact (List.length_take_of_le hstart.le).symm
  · rw [byteLength_tag]
    omega

/-- The bytes of a tag in those of a text are a tag in the text. -/
theorem exists_eq_of_encodeChars_tag {s name : List Char} {xs ys : List UInt8}
    (h : encodeChars s = xs ++ 0x3C :: (encodeChars name ++ 0x3E :: ys)) :
    ∃ x y, s = x ++ (Piece.tag name).spell ++ y ∧ xs.length = byteLength x := by
  have hopening : (encodeChars s)[xs.length]? = some 0x3C := by simp [h]
  obtain ⟨x, u, rfl, hx⟩ := exists_of_getElem?_encodeChars (d := '<') (by decide) hopening
  have hbracket : encodeChar '<' = [0x3C] := rfl
  rw [encodeChars_append, encodeChars_cons, hbracket] at h
  -- both sides are cut in front of the bracket
  have hrest := (List.append_inj h ((length_encodeChars x).trans hx.symm)).2
  have hu : encodeChars u = encodeChars name ++ 0x3E :: ys := (List.cons.inj hrest).2
  obtain ⟨v, rfl⟩ : name <+: u := isPrefix_encodeChars_iff.mp ⟨_, hu.symm⟩
  rw [encodeChars_append] at hu
  have hclosing : (encodeChars v).head? = some 0x3E := by rw [List.append_cancel_left hu]; rfl
  obtain ⟨y, rfl⟩ := exists_eq_cons_of_head? (d := '>') (by decide) hclosing
  exact ⟨x, y, by simp [Piece.spell], hx⟩

/-- **The tags that are reported are those that stand in the bytes.** -/
theorem mem_tags_iff_stands {s : List Char} {t : Tag} :
    t ∈ tags s ↔ t.Stands (encodeChars s) := by
  rw [mem_tags_iff]
  constructor
  · rintro ⟨hname, hchars, x, y, rfl, hstart, hstop⟩
    have ht : t = tagAfter x t.name := by
      rw [tagAfter, byteLength_append, ← hstart, ← hstop]
    rw [ht]
    exact stands_of_isTagName hname hchars x y
  · intro h
    obtain ⟨xs, ys, hbytes, hstart, hstop⟩ := h.exists_bytes_eq
    obtain ⟨x, y, hs, hx⟩ := exists_eq_of_encodeChars_tag hbytes
    refine ⟨isTagName_iff.mpr h.body, fun c hc => ?_, x, y, hs, hstart.trans hx, hstop⟩
    obtain ⟨b, bs, hchar, _⟩ := exists_encodeChar_eq_cons c
    have hb : b ∈ encodeChar c := by simp [hchar]
    exact (reads_tagByte c b hb).symm.trans (h.tagBytes b (List.mem_flatMap.mpr ⟨c, hc, hb⟩))

/-! ## order -/

/-- Tags are in order, and each ends before the next begins. -/
theorem pairwise_tagsFrom (i : Nat) (ps : List Piece) :
    (tagsFrom i ps).Pairwise fun t t' => t.start < t'.start ∧ t.stop ≤ t'.start := by
  induction ps generalizing i with
  | nil => exact .nil
  | cons p ps ih =>
      cases p with
      | char c => exact ih _
      | tag name =>
          refine List.pairwise_cons.mpr ⟨fun t' ht' => ?_, ih _⟩
          have hstart := (start_of_mem_tagsFrom ht').1
          have hlength := byteLength_tag name
          exact ⟨by show i < t'.start; omega, hstart⟩

/-! ## texts side by side -/

/-- A tag in a text that stands behind a number of bytes. -/
def Tag.shift (n : Nat) (t : Tag) : Tag := ⟨t.name, n + t.start, n + t.stop⟩

theorem tagsFrom_add (n i : Nat) (ps : List Piece) :
    tagsFrom (n + i) ps = (tagsFrom i ps).map (.shift n) := by
  induction ps generalizing i with
  | nil => rfl
  | cons p ps ih =>
      cases p with
      | char c => rw [tagsFrom, tagsFrom, Nat.add_assoc, ih]
      | tag name =>
          rw [tagsFrom, tagsFrom, List.map_cons, ← ih, Tag.shift, ← Nat.add_assoc]

theorem tags_append {x y : List Char} (h : Closed x ∨ Fresh y) :
    tags (x ++ y) = tags x ++ (tags y).map (.shift (byteLength x)) := by
  rw [tags, tags, tags, scan_append h, tagsFrom_append, spell_scan, Nat.zero_add, ← tagsFrom_add,
    Nat.add_zero]

/-- Whether two texts can be scanned one after the other is seen from the bytes at their border. -/
theorem closed_or_fresh {x y : List Char}
    (h : (encodeChars y).head? = some 0x3C ∨
      ∃ b ∈ (encodeChars x).getLast?, b ≠ 0x3C ∧ isTagByte b = false) : Closed x ∨ Fresh y := by
  rcases h with hhead | ⟨b, hlast, hopen, htag⟩
  · obtain ⟨y', rfl⟩ := exists_eq_cons_of_head? (d := '<') (by decide) hhead
    exact .inr (fresh_bracket y')
  · refine .inl fun c hc => ?_
    obtain ⟨x', rfl⟩ := List.getLast?_eq_some_iff.mp hc
    have hb : b ∈ encodeChar c := by
      rw [encodeChars_append, encodeChars_cons, encodeChars_nil, List.append_nil,
        List.getLast?_append_of_ne_nil _ (encodeChar_ne_nil c)] at hlast
      exact List.mem_of_getLast? hlast
    refine ⟨?_, (reads_tagByte c b hb).symm.trans htag⟩
    rintro rfl
    exact hopen (List.mem_singleton.mp hb)

/-! ## what stripping takes out -/

/-- Whether a position is inside of one of some tags. -/
def covers (ts : List Tag) (i : Nat) : Bool :=
  ts.any fun t => decide (t.start ≤ i) && decide (i < t.stop)

/-- Bytes that begin at a position, without those that are inside of tags. -/
def outsideFrom (i : Nat) (ts : List Tag) (bytes : List UInt8) : List UInt8 :=
  ((bytes.zipIdx i).filter fun e => !covers ts e.2).map Prod.fst

section

variable {i : Nat} {ts ts' : List Tag}

theorem outsideFrom_append (xs ys : List UInt8) :
    outsideFrom i ts (xs ++ ys) = outsideFrom i ts xs ++ outsideFrom (i + xs.length) ts ys := by
  simp [outsideFrom, List.zipIdx_append]

theorem outsideFrom_congr {bytes : List UInt8}
    (h : ∀ j, i ≤ j → j < i + bytes.length → covers ts j = covers ts' j) :
    outsideFrom i ts bytes = outsideFrom i ts' bytes := by
  refine congrArg _ (List.filter_congr fun e he => ?_)
  obtain ⟨hle, hlt, _⟩ := List.mem_zipIdx (x := e.1) (i := e.2) he
  rw [h e.2 hle (by omega)]

theorem outsideFrom_nil (i : Nat) (bytes : List UInt8) : outsideFrom i [] bytes = bytes := by
  simp [outsideFrom, covers]

/-- Bytes in a tag are taken out. -/
theorem outsideFrom_of_covers {bytes : List UInt8}
    (h : ∀ j, i ≤ j → j < i + bytes.length → covers ts j = true) :
    outsideFrom i ts bytes = [] := by
  rw [outsideFrom, List.map_eq_nil_iff, List.filter_eq_nil_iff]
  intro e he
  obtain ⟨hle, hlt, _⟩ := List.mem_zipIdx (x := e.1) (i := e.2) he
  simp [h e.2 hle (by omega)]

end

theorem covers_tagsFrom_of_lt {i j : Nat} (ps : List Piece) (h : j < i) :
    covers (tagsFrom i ps) j = false := by
  rw [covers, List.any_eq_false]
  intro t ht
  have hstart := (start_of_mem_tagsFrom ht).1
  simp
  omega

/-- The bytes of pieces that are outside of their tags are those of the characters. -/
theorem outsideFrom_tagsFrom (i : Nat) (ps : List Piece) :
    outsideFrom i (tagsFrom i ps) (encodeChars (spell ps)) = encodeChars (strip ps) := by
  induction ps generalizing i with
  | nil => rfl
  | cons p ps ih =>
      rw [spell_cons, encodeChars_append, outsideFrom_append, length_encodeChars]
      cases p with
      | char c =>
          have hsize : byteLength (Piece.char c).spell = c.utf8Size := by simp [Piece.spell]
          -- later tags begin behind the bytes of `c`
          have hfront : outsideFrom i (tagsFrom (i + c.utf8Size) ps)
              (encodeChars (Piece.char c).spell) = encodeChars (Piece.char c).spell := by
            refine (outsideFrom_congr fun j _ hlt => ?_).trans (outsideFrom_nil i _)
            rw [length_encodeChars, hsize] at hlt
            rw [covers_tagsFrom_of_lt ps hlt]
            rfl
          rw [tagsFrom, hfront, hsize, ih]
          simp [Piece.spell, strip]
      | tag name =>
          rw [tagsFrom, strip, ← ih, outsideFrom_of_covers, List.nil_append]
          -- the tag itself covers nothing of what comes behind it
          · refine outsideFrom_congr fun j hle _ => ?_
            simp [covers, Nat.not_lt.mpr hle]
          · intro j hle hlt
            rw [length_encodeChars] at hlt
            simp [covers, hle, hlt]

/-- **Stripping takes out the bytes of the tags** and no others. -/
theorem encodeChars_strip (s : List Char) :
    encodeChars (strip (scan s)) = outsideFrom 0 (tags s) (encodeChars s) := by
  have hstrip := outsideFrom_tagsFrom 0 (scan s)
  rw [spell_scan] at hstrip
  exact hstrip.symm

/-! ## the lexer -/

/-- **The lexer finds exactly the tags.**  What it reports are the tags that stand in the bytes of
the text, from left to right and apart from each other.  Of two texts it reports the tags of each,
if the second begins with a bracket, or the first ends with a byte that can be in no tag to come.
Stripping takes out the bytes of the tags, and leaves all others as they are. -/
theorem lexer_finds_exactly (s : List Char) :
    Lexer.tags? s = some (tags s) ∧
    (∀ t, t ∈ tags s ↔ t.Stands (encodeChars s)) ∧
    ((tags s).Pairwise fun t t' => t.start < t'.start ∧ t.stop ≤ t'.start) ∧
    (∀ y, ((encodeChars y).head? = some 0x3C ∨
        ∃ b ∈ (encodeChars s).getLast?, b ≠ 0x3C ∧ isTagByte b = false) →
      tags (s ++ y) = tags s ++ (tags y).map (.shift (encodeChars s).length)) ∧
    encodeChars (strip (scan s)) = outsideFrom 0 (tags s) (encodeChars s) := by
  refine ⟨Lexer.tags?_eq s, fun _ => mem_tags_iff_stands, pairwise_tagsFrom 0 (scan s),
    fun y hborder => ?_, encodeChars_strip s⟩
  rw [length_encodeChars]
  exact tags_append (closed_or_fresh hborder)

/-- Behind a text that ends within a tag, the tags of another text are its own. -/
theorem lexer_finds_exactly_beside :
    let s := ['<', 'b', '>', 'a', '<', 'i']
    let y := ['<', '/', 'b', '>']
    (encodeChars y).head? = some 0x3C ∧
      tags (s ++ y) = tags s ++ (tags y).map (.shift (encodeChars s).length) := by
  intro s y
  have hhead : (encodeChars y).head? = some 0x3C := rfl
  exact ⟨hhead, (lexer_finds_exactly s).2.2.2.1 y (.inl hhead)⟩

end InstallAssistant.Markup
