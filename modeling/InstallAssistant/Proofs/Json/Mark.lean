import InstallAssistant.Json.Token
import Mathlib.Data.List.Infix

/-!
# InstallAssistant.Proofs.Json.Mark

JSON text made of marks.  A mark is a token whose text tells by itself where it
ends: every token but a number, and but a string that has no text.  Two laws hold
of the text of any run of marks:

* it is read back as these marks, whatever follows it (`ofChars?_text_append`);
* a beginning of it that is still made of tokens has been cut between two marks
  (`exists_of_prefix_text`), because a mark that is cut within is no token.
-/

namespace InstallAssistant.Json

/-! ## escaped text -/

theorem escape_cons (c : Char) (s : List Char) : escape (c :: s) = escapeChar c ++ escape s := rfl

theorem escape_append (s t : List Char) : escape (s ++ t) = escape s ++ escape t :=
  List.flatMap_append

namespace Token

/-! ## strings -/

theorem unit?_hexDigit :
    ∀ n < 0x20, unit? '0' '0' (hexDigit (n / 16)) (hexDigit (n % 16)) = some n := by
  decide

/-- The three forms of a character between quotation marks: itself, a backslash and one more
character, or its number. -/
theorem escapeChar_forms (c : Char) :
    (escapeChar c = [c] ∧ c ≠ '\x22' ∧ c ≠ '\\' ∧ 0x20 ≤ c.toNat) ∨
      (∃ e, escapeChar c = ['\\', e] ∧ e ≠ 'u' ∧ simpleEscape? e = some c) ∨
      (escapeChar c = ['\\', 'u', '0', '0', hexDigit (c.toNat / 16), hexDigit (c.toNat % 16)] ∧
        c.toNat < 0x20) := by
  unfold escapeChar
  split
  · next h => exact .inr (.inl ⟨'\x22', rfl, by decide, by rw [h]; rfl⟩)
  split
  · next h => exact .inr (.inl ⟨'\\', rfl, by decide, by rw [h]; rfl⟩)
  split
  · next h => exact .inr (.inl ⟨'b', rfl, by decide, by rw [h]; rfl⟩)
  split
  · next h => exact .inr (.inl ⟨'t', rfl, by decide, by rw [h]; rfl⟩)
  split
  · next h => exact .inr (.inl ⟨'n', rfl, by decide, by rw [h]; rfl⟩)
  split
  · next h => exact .inr (.inl ⟨'f', rfl, by decide, by rw [h]; rfl⟩)
  split
  · next h => exact .inr (.inl ⟨'r', rfl, by decide, by rw [h]; rfl⟩)
  split
  · next h => exact .inr (.inr ⟨rfl, h⟩)
  · next hq hb _ _ _ _ _ hc => exact .inl ⟨rfl, hq, hb, Nat.le_of_not_lt hc⟩

/-- A character that does not occur in the writing of another one: it is no letter of an escape,
and it is a different character or one that is always escaped. -/
theorem notMem_escapeChar {c d : Char} (hsimple : simpleEscape? d = none)
    (hunit : ∀ n < 0x20, d ∉ ['\\', 'u', '0', '0', hexDigit (n / 16), hexDigit (n % 16)])
    (hplain : d ≠ c ∨ d.toNat < 0x20) : d ∉ escapeChar c := by
  have hback : d ≠ '\\' := by
    rintro rfl
    exact hunit 0 (by decide) List.mem_cons_self
  rcases escapeChar_forms c with ⟨hc, _, _, hlow⟩ | ⟨e, hc, _, he⟩ | ⟨hc, hlow⟩
  · rw [hc, List.mem_singleton]
    rintro rfl
    rcases hplain with hne | hd
    · exact hne rfl
    · exact absurd hd (Nat.not_lt.mpr hlow)
  · have hne : d ≠ e := by
      rintro rfl
      rw [hsimple] at he
      contradiction
    rw [hc]
    simp [hback, hne]
  · rw [hc]
    exact hunit c.toNat hlow

theorem pieces?_plain {c : Char} (hq : c ≠ '\x22') (hb : c ≠ '\\') (hc : 0x20 ≤ c.toNat)
    (rest : List Char) :
    pieces? (c :: rest) = (pieces? rest).map fun (ps, r) => (.char c :: ps, r) := by
  have hlow : ¬ c.toNat < 0x20 := by omega
  rw [pieces?.eq_5 _ _ hq (fun _ _ _ _ _ h _ => hb h) (fun _ _ h _ => hb h), if_neg hlow]

theorem pieces?_simple {c e : Char} (hu : e ≠ 'u') (he : simpleEscape? e = some c)
    (rest : List Char) :
    pieces? ('\\' :: e :: rest) = (pieces? rest).map fun (ps, r) => (.char c :: ps, r) := by
  rw [pieces?.eq_4 _ _ (fun _ _ _ _ _ h _ => hu h), he]
  cases pieces? rest <;> rfl

theorem pieces?_unit {n : Nat} (h : n < 0x20) (rest : List Char) :
    pieces? ('\\' :: 'u' :: '0' :: '0' :: hexDigit (n / 16) :: hexDigit (n % 16) :: rest) =
      (pieces? rest).map fun (ps, r) => (.char (Char.ofNat n) :: ps, r) := by
  have hpiece : Piece.ofUnit n = .char (Char.ofNat n) := by
    rw [Piece.ofUnit, if_neg (by omega)]
  rw [pieces?, unit?_hexDigit n h]
  cases pieces? rest <;> simp [hpiece]

/-- An escaped character is read back as the character. -/
theorem pieces?_escapeChar_append (c : Char) (rest : List Char) :
    pieces? (escapeChar c ++ rest) = (pieces? rest).map fun (ps, r) => (.char c :: ps, r) := by
  rcases escapeChar_forms c with ⟨h, hq, hb, hc⟩ | ⟨e, h, hu, he⟩ | ⟨h, hc⟩
  · rw [h]
    exact pieces?_plain hq hb hc rest
  · rw [h]
    exact pieces?_simple hu he rest
  · rw [h]
    have := pieces?_unit hc rest
    rwa [Char.ofNat_toNat] at this

/-- An escaped text is read back up to the quotation mark behind it. -/
theorem pieces?_escape_append (s rest : List Char) :
    pieces? (escape s ++ '\x22' :: rest) = some (s.map .char, rest) := by
  induction s with
  | nil => rfl
  | cons c cs ih =>
      rw [escape_cons, List.append_assoc, pieces?_escapeChar_append, ih]
      rfl

/-- A part of an escaped character is nothing that a string could hold. -/
theorem pieces?_cut_escapeChar {c : Char} {p : List Char} (hp : p <+: escapeChar c)
    (hne : p ≠ escapeChar c) : pieces? p = none := by
  have hparts : ∀ q ∈ (escapeChar c).inits, q ≠ escapeChar c → pieces? q = none := by
    rcases escapeChar_forms c with ⟨h, _⟩ | ⟨e, h, _⟩ | ⟨h, _⟩
    · rw [h]
      simp [List.inits, pieces?]
    · rw [h]
      simp [List.inits, pieces?]
    · rw [h]
      simp [List.inits, pieces?, simpleEscape?]
  exact hparts p ((List.mem_inits _ _).mpr hp) hne

/-- No string ends within an escaped text: the quotation mark is missing. -/
theorem pieces?_of_prefix_escape {s p : List Char} (hp : p <+: escape s) : pieces? p = none := by
  induction s generalizing p with
  | nil =>
      rw [List.prefix_nil.mp hp]
      rfl
  | cons c cs ih =>
      rw [escape_cons] at hp
      rcases List.prefix_or_prefix_of_prefix hp (List.prefix_append _ _) with hc | ⟨q, rfl⟩
      · by_cases hpc : p = escapeChar c
        · have := pieces?_escapeChar_append c []
          rw [List.append_nil] at this
          rw [hpc, this]
          rfl
        · exact pieces?_cut_escapeChar hc hpc
      · rw [pieces?_escapeChar_append, ih ((List.prefix_append_right_inj _).mp hp)]
        rfl

theorem text?_map_char (s : List Char) : text? (s.map .char) = some s := by
  induction s with
  | nil => rfl
  | cons c cs ih => simp [text?, ih]

/-- A quoted text is one token, whatever follows it. -/
theorem scalar?_quote_append (s : String) (rest : List Char) :
    scalar? (quote s ++ rest) = some (.string (some s), rest) := by
  rw [quote, List.cons_append, List.append_assoc, List.singleton_append, scalar?,
    pieces?_escape_append, Option.map_some]
  simp only [text?_map_char, Option.map_some, String.ofList_toList]

/-! ## marks -/

/-- A token that is no number. -/
inductive Mark
  | beginArray
  | endArray
  | beginObject
  | endObject
  | comma
  | colon
  | null
  | bool (b : Bool)
  | string (s : String)
deriving DecidableEq, Repr

def Mark.token : Mark → Token
  | .beginArray => .beginArray
  | .endArray => .endArray
  | .beginObject => .beginObject
  | .endObject => .endObject
  | .comma => .comma
  | .colon => .colon
  | .null => .null
  | .bool b => .bool b
  | .string s => .string (some s)

/-- A mark as it is written. -/
def Mark.text : Mark → List Char
  | .beginArray => ['[']
  | .endArray => [']']
  | .beginObject => ['\x7b']
  | .endObject => ['\x7d']
  | .comma => [',']
  | .colon => [':']
  | .null => ['n', 'u', 'l', 'l']
  | .bool true => ['t', 'r', 'u', 'e']
  | .bool false => ['f', 'a', 'l', 's', 'e']
  | .string s => quote s

/-- The text of a run of marks. -/
def text (ms : List Mark) : List Char := ms.flatMap Mark.text

theorem text_append (ms ks : List Mark) : text (ms ++ ks) = text ms ++ text ks :=
  List.flatMap_append

/-! ### steps of the lexer -/

@[simp] theorem ofChars?_nil : ofChars? [] = some [] := by rw [ofChars?]

theorem ofChars?_blank {c : Char} (h : isBlank c = true) (cs : List Char) :
    ofChars? (c :: cs) = ofChars? cs := by
  rw [ofChars?, if_pos h]

theorem ofChars?_punctuation {c : Char} {t : Token} (hb : isBlank c = false)
    (h : punctuation? c = some t) (cs : List Char) :
    ofChars? (c :: cs) = (ofChars? cs).map (t :: ·) := by
  rw [ofChars?, if_neg (by rw [hb]; decide), h]

theorem ofChars?_scalar {c : Char} {cs rest : List Char} {t : Token} (hb : isBlank c = false)
    (hp : punctuation? c = none) (h : scalar? (c :: cs) = some (t, rest)) :
    ofChars? (c :: cs) = (ofChars? rest).map (t :: ·) := by
  rw [ofChars?, if_neg (by rw [hb]; decide), hp]
  simp only []
  split
  · next hn => rw [h] at hn; contradiction
  · next t' rest' hs =>
      rw [h] at hs
      injection hs with hs
      injection hs with h₁ h₂
      rw [h₁, h₂]

theorem ofChars?_of_scalar?_eq_none {c : Char} {cs : List Char} (hb : isBlank c = false)
    (hp : punctuation? c = none) (h : scalar? (c :: cs) = none) : ofChars? (c :: cs) = none := by
  rw [ofChars?, if_neg (by rw [hb]; decide), hp]
  simp only []
  split
  · rfl
  · next t rest hs => rw [h] at hs; contradiction

/-! ### reading marks back -/

/-- A mark is read back as its token, whatever follows it. -/
theorem ofChars?_mark_append (m : Mark) (rest : List Char) :
    ofChars? (m.text ++ rest) = (ofChars? rest).map (m.token :: ·) := by
  cases m with
  | beginArray => exact ofChars?_punctuation rfl rfl rest
  | endArray => exact ofChars?_punctuation rfl rfl rest
  | beginObject => exact ofChars?_punctuation rfl rfl rest
  | endObject => exact ofChars?_punctuation rfl rfl rest
  | comma => exact ofChars?_punctuation rfl rfl rest
  | colon => exact ofChars?_punctuation rfl rfl rest
  | null => exact ofChars?_scalar rfl rfl rfl
  | bool b =>
      cases b with
      | false => exact ofChars?_scalar rfl rfl rfl
      | true => exact ofChars?_scalar rfl rfl rfl
  | string s => exact ofChars?_scalar rfl rfl (scalar?_quote_append s rest)

/-- **Marks are read back**, whatever follows them. -/
theorem ofChars?_text_append (ms : List Mark) (rest : List Char) :
    ofChars? (text ms ++ rest) = (ofChars? rest).map (ms.map Mark.token ++ ·) := by
  induction ms with
  | nil => cases h : ofChars? rest <;> simp [text, h]
  | cons m ms ih =>
      have hcons : text (m :: ms) = m.text ++ text ms := rfl
      rw [hcons, List.append_assoc, ofChars?_mark_append, ih, Option.map_map]
      rfl

theorem ofChars?_text (ms : List Mark) : ofChars? (text ms) = some (ms.map Mark.token) := by
  have := ofChars?_text_append ms []
  rwa [List.append_nil, ofChars?_nil, Option.map_some, List.append_nil] at this

/-! ### cut marks -/

/-- A token that is cut within is none, when nothing that is there of it is read as a scalar. -/
theorem ofChars?_cut {c : Char} {cs p : List Char} (hb : isBlank c = false)
    (hpunctuation : punctuation? c = none)
    (hcut : ∀ q ∈ cs.inits, q ≠ cs → scalar? (c :: q) = none)
    (hp : p <+: c :: cs) (hnil : p ≠ []) (hne : p ≠ c :: cs) : ofChars? p = none := by
  rcases List.prefix_cons_iff.mp hp with rfl | ⟨q, rfl, hq⟩
  · exact absurd rfl hnil
  · have hshort : q ≠ cs := fun heq => hne (by rw [heq])
    exact ofChars?_of_scalar?_eq_none hb hpunctuation
      (hcut q ((List.mem_inits q cs).mpr hq) hshort)

/-- Within a quoted text there is no closing quotation mark. -/
theorem scalar?_cut_quote {s : String} {q : List Char}
    (hq : q ∈ (escape s.toList ++ ['\x22']).inits) (hne : q ≠ escape s.toList ++ ['\x22']) :
    scalar? ('\x22' :: q) = none := by
  have hcut := (List.prefix_concat_iff.mp ((List.mem_inits _ _).mp hq)).resolve_left hne
  rw [scalar?, pieces?_of_prefix_escape hcut]
  rfl

/-- A mark that is cut within is no token. -/
theorem ofChars?_cut_mark {m : Mark} {p : List Char} (hp : p <+: m.text) (hnil : p ≠ [])
    (hne : p ≠ m.text) : ofChars? p = none := by
  cases m with
  | string s => exact ofChars?_cut rfl rfl (fun q hq => scalar?_cut_quote hq) hp hnil hne
  | null => exact ofChars?_cut rfl rfl (by decide) hp hnil hne
  | bool b =>
      cases b with
      | false => exact ofChars?_cut rfl rfl (by decide) hp hnil hne
      | true => exact ofChars?_cut rfl rfl (by decide) hp hnil hne
  | beginArray | endArray | beginObject | endObject | comma | colon =>
      -- of a single character there is all or nothing
      rcases List.prefix_cons_iff.mp hp with rfl | ⟨q, rfl, hq⟩
      · exact absurd rfl hnil
      · rw [List.prefix_nil.mp hq] at hne
        exact absurd rfl hne

/-- **Cut marks**: a beginning of the text of marks that is made of tokens at all has been cut
between two marks. -/
theorem exists_of_prefix_text {ms : List Mark} {p : List Char} {ts : List Token}
    (hp : p <+: text ms) (h : ofChars? p = some ts) :
    ∃ ks, ks <+: ms ∧ p = text ks ∧ ts = ks.map Mark.token := by
  induction ms generalizing p ts with
  | nil =>
      have hnil : p = [] := List.prefix_nil.mp hp
      subst hnil
      rw [ofChars?_nil] at h
      exact ⟨[], List.nil_prefix, rfl, (Option.some.inj h).symm⟩
  | cons m ms ih =>
      have hcons : text (m :: ms) = m.text ++ text ms := rfl
      rw [hcons] at hp
      rcases List.prefix_or_prefix_of_prefix hp (List.prefix_append _ _) with hm | ⟨q, rfl⟩
      · by_cases hnil : p = []
        · subst hnil
          rw [ofChars?_nil] at h
          exact ⟨[], List.nil_prefix, rfl, (Option.some.inj h).symm⟩
        · by_cases hpm : p = m.text
          · refine ⟨[m], ?_, ?_, ?_⟩
            · rw [List.prefix_cons_iff]
              exact .inr ⟨[], rfl, List.nil_prefix⟩
            · rw [hpm]
              exact (List.append_nil _).symm
            · have := ofChars?_mark_append m []
              rw [List.append_nil, ← hpm, h] at this
              simpa using this
          · rw [ofChars?_cut_mark hm hnil hpm] at h
            contradiction
      · rw [ofChars?_mark_append] at h
        obtain ⟨us, hus, rfl⟩ := Option.map_eq_some_iff.mp h
        obtain ⟨ks, hks, rfl, rfl⟩ := ih ((List.prefix_append_right_inj _).mp hp) hus
        exact ⟨m :: ks, (List.prefix_cons_inj m).mpr hks, rfl, rfl⟩

end Token

end InstallAssistant.Json
