import InstallAssistant.Proofs.Json.Float
import InstallAssistant.Proofs.Json.Tree
import Mathlib.Data.List.Forall2

/-!
# InstallAssistant.Proofs.Json.Print

Printed values are read back.  A text is lexed as tokens when it is read as them
whatever follows it (`Lexes`); texts put behind one another are lexed one by one,
and blanks between them do not count.  The text of a number does not tell by itself
where it ends, so it is lexed only before what does not go on with a number
(`LexesBefore`); inside of a value such a thing always follows.

* A value whose floats are finite is lexed as its tokens, on one line
  (`lexesBefore_print`) or indented to any depth (`lexesBefore_printAt`).
* The tokens of a value spell its tree (`ofTokens?_tokens`).

So both texts of such a value spell the tree of the value (`parse?_pretty`,
`parse?_compact`).  The first of them is one line (`oneLine_print`).
-/

namespace InstallAssistant.Json

open Token

/-! ## the numbers of a value -/

mutual

/-- Whether all numbers in a value are of a kind. -/
def allNumbers (p : Number → Bool) : Json → Bool
  | .number n => p n
  | .array items => allInItems p items
  | .object members => allInMembers p members
  | _ => true

def allInItems (p : Number → Bool) : List Json → Bool
  | [] => true
  | v :: vs => allNumbers p v && allInItems p vs

def allInMembers (p : Number → Bool) : List (String × Json) → Bool
  | [] => true
  | (_, v) :: ms => allNumbers p v && allInMembers p ms

end

mutual

theorem allNumbers_mono {p q : Number → Bool} (h : ∀ n, p n = true → q n = true) :
    ∀ v : Json, v.allNumbers p = true → v.allNumbers q = true
  | .null, _ => rfl
  | .bool _, _ => rfl
  | .number n, hn => h n hn
  | .string _, _ => rfl
  | .array items, hitems => allInItems_mono h items hitems
  | .object members, hmembers => allInMembers_mono h members hmembers

theorem allInItems_mono {p q : Number → Bool} (h : ∀ n, p n = true → q n = true) :
    ∀ items : List Json, allInItems p items = true → allInItems q items = true
  | [], _ => rfl
  | v :: vs, hall => by
      simp only [allInItems, Bool.and_eq_true] at hall ⊢
      exact ⟨allNumbers_mono h v hall.1, allInItems_mono h vs hall.2⟩

theorem allInMembers_mono {p q : Number → Bool} (h : ∀ n, p n = true → q n = true) :
    ∀ members : List (String × Json), allInMembers p members = true →
      allInMembers q members = true
  | [], _ => rfl
  | (_, v) :: ms, hall => by
      simp only [allInMembers, Bool.and_eq_true] at hall ⊢
      exact ⟨allNumbers_mono h v hall.1, allInMembers_mono h ms hall.2⟩

end

theorem allInItems_map {p : Number → Bool} {α : Type} {f : α → Json} (xs : List α)
    (h : ∀ x ∈ xs, (f x).allNumbers p = true) : allInItems p (xs.map f) = true := by
  induction xs with
  | nil => rfl
  | cons x xs ih =>
      obtain ⟨hx, hxs⟩ := List.forall_mem_cons.mp h
      rw [List.map_cons, allInItems, hx, ih hxs, Bool.and_true]

/-- Whether all floats in a value are finite. -/
abbrev finite (v : Json) : Bool := v.allNumbers Number.isFinite

/-! ## values and their tokens -/

/-- Runs of tokens with commas between them. -/
def commaTokens : List (List Token) → List Token
  | [] => []
  | [ts] => ts
  | ts :: more => ts ++ .comma :: commaTokens more

theorem commaTokens_cons (ts : List Token) (more : List (List Token)) :
    commaTokens (ts :: more) = ts ++ more.flatMap (.comma :: ·) := by
  induction more generalizing ts with
  | nil => simp [commaTokens]
  | cons us more ih => simp [commaTokens, ih]

mutual

/-- The tokens of a value, in the order in which it is printed. -/
def tokens : Json → List Token
  | .null => [.null]
  | .bool b => [.bool b]
  | .number n => [.number (.ofNumber n)]
  | .string s => [.string (some s)]
  | .array items => .beginArray :: (commaTokens (itemTokens items) ++ [.endArray])
  | .object members => .beginObject :: (commaTokens (memberTokens members) ++ [.endObject])

def itemTokens : List Json → List (List Token)
  | [] => []
  | v :: vs => tokens v :: itemTokens vs

def memberTokens : List (String × Json) → List (List Token)
  | [] => []
  | (k, v) :: ms => (.string (some k) :: .colon :: tokens v) :: memberTokens ms

end

/-! ## lexing -/

/-- A text that is read as tokens, whatever follows it. -/
def Lexes (s : List Char) (ts : List Token) : Prop :=
  ∀ rest, ofChars? (s ++ rest) = (ofChars? rest).map (ts ++ ·)

namespace Lexes

variable {s t : List Char} {ts us : List Token}

theorem nil : Lexes [] [] := by
  intro rest
  cases h : ofChars? rest <;> simp [h]

theorem append (hs : Lexes s ts) (ht : Lexes t us) : Lexes (s ++ t) (ts ++ us) := by
  intro rest
  rw [List.append_assoc, hs, ht, Option.map_map]
  congr 1
  funext ws
  simp

theorem mark (m : Mark) : Lexes m.text [m.token] := by
  intro rest
  rw [ofChars?_mark_append]
  rfl

theorem blank {c : Char} (hc : isBlank c = true) (hs : Lexes s ts) : Lexes (c :: s) ts := by
  intro rest
  rw [List.cons_append, ofChars?_blank hc, hs]

theorem blanks {b : List Char} (hb : ∀ c ∈ b, isBlank c = true) (hs : Lexes s ts) :
    Lexes (b ++ s) ts := by
  induction b with
  | nil => exact hs
  | cons c b ih =>
      exact (ih fun d hd => hb d (List.mem_cons_of_mem c hd)).blank (hb c List.mem_cons_self)

end Lexes

theorem isBlank_newLine (depth : Nat) : ∀ c ∈ newLine depth, isBlank c = true := by
  intro c hc
  simp only [newLine, List.mem_cons, List.mem_replicate] at hc
  rcases hc with rfl | ⟨_, rfl⟩ <;> rfl

theorem lexes_key (k : String) : Lexes (quote k) [.string (some k)] := Lexes.mark (.string k)

/-! ### numbers -/

theorem digit_ne {c d : Char} (hc : c.isDigit = true) (hd : d.isDigit = false) : c ≠ d := by
  rintro rfl
  rw [hc] at hd
  contradiction

theorem Number.exists_print_eq_cons {n : Number} (hn : n.isFinite = true) :
    ∃ c cs, n.print = c :: cs ∧ (c.isDigit = true ∨ c = '-') := by
  obtain ⟨l, hl, hprint, -⟩ := n.exists_literal hn
  obtain ⟨d, ds, hwhole, hd⟩ := hl.exists_whole_eq_cons
  rw [hprint, Literal.print, hwhole]
  cases l.negative with
  | true => exact ⟨'-', _, rfl, .inr rfl⟩
  | false => exact ⟨d, _, rfl, .inl hd⟩

theorem Number.read?_print {n : Number} (hn : n.isFinite = true) {rest : List Char}
    (hrest : Ends rest) : Literal.read? (n.print ++ rest) = some (.ofNumber n, rest) := by
  obtain ⟨l, hl, hprint, hliteral⟩ := n.exists_literal hn
  rw [hprint, hliteral, Literal.read?_print hl hrest]

/-- A number is no string and no word. -/
theorem scalar?_eq_read? {c : Char} (hc : c.isDigit = true ∨ c = '-') (cs : List Char) :
    scalar? (c :: cs) = (Literal.read? (c :: cs)).map fun (l, rest) => (.number l, rest) := by
  have hne : ∀ d, d.isDigit = false → d ≠ '-' → c ≠ d := by
    rintro d hd hminus rfl
    rcases hc with hc | hc
    · exact absurd hc (by rw [hd]; decide)
    · exact hminus hc
  unfold scalar?
  split
  · next heq => exact absurd (List.cons.inj heq).1 (hne _ (by decide) (by decide))
  · next heq => exact absurd (List.cons.inj heq).1 (hne _ (by decide) (by decide))
  · next heq => exact absurd (List.cons.inj heq).1 (hne _ (by decide) (by decide))
  · next heq => exact absurd (List.cons.inj heq).1 (hne _ (by decide) (by decide))
  · rfl

theorem ofChars?_number_append {n : Number} (hn : n.isFinite = true) {rest : List Char}
    (hrest : Ends rest) :
    ofChars? (n.print ++ rest) = (ofChars? rest).map (.number (.ofNumber n) :: ·) := by
  obtain ⟨c, cs, hprint, hc⟩ := n.exists_print_eq_cons hn
  have hread := n.read?_print hn hrest
  rw [hprint, List.cons_append] at hread ⊢
  have hscalar := (scalar?_eq_read? hc (cs ++ rest)).trans (congrArg _ hread)
  refine ofChars?_scalar ?_ ?_ hscalar
  · rcases hc with hc | rfl
    · simp [isBlank, digit_ne hc]
    · rfl
  · rcases hc with hc | rfl
    · simp [punctuation?, digit_ne hc]
    · rfl

/-- A text that is read as tokens before whatever does not go on with a number. -/
def LexesBefore (s : List Char) (ts : List Token) : Prop :=
  ∀ rest, Ends rest → ofChars? (s ++ rest) = (ofChars? rest).map (ts ++ ·)

namespace LexesBefore

variable {s t : List Char} {ts us : List Token}

theorem of_lexes (h : Lexes s ts) : LexesBefore s ts := fun rest _ => h rest

theorem number {n : Number} (hn : n.isFinite = true) :
    LexesBefore n.print [.number (.ofNumber n)] := fun _ hrest => ofChars?_number_append hn hrest

theorem map_append (ts us : List Token) (read : Option (List Token)) :
    (read.map (us ++ ·)).map (ts ++ ·) = read.map (ts ++ us ++ ·) := by
  cases read <;> simp

/-- What follows may stop a number, and may end in one. -/
theorem append {c : Char} (hs : LexesBefore s ts) (hc : continuesNumber c = false)
    (ht : LexesBefore (c :: t) us) : LexesBefore (s ++ c :: t) (ts ++ us) := by
  intro rest hrest
  rw [List.append_assoc, hs (c :: t ++ rest) (ends_cons hc _), ht rest hrest, map_append]

/-- A text that no number ends is read by itself. -/
theorem close {c : Char} (hs : LexesBefore s ts) (hc : continuesNumber c = false)
    (ht : Lexes (c :: t) us) : Lexes (s ++ c :: t) (ts ++ us) := by
  intro rest
  rw [List.append_assoc, hs (c :: t ++ rest) (ends_cons hc _), ht rest, map_append]

theorem lexes_append (hs : Lexes s ts) (ht : LexesBefore t us) :
    LexesBefore (s ++ t) (ts ++ us) := by
  intro rest hrest
  rw [List.append_assoc, hs, ht rest hrest, map_append]

theorem blanks {b : List Char} (hb : ∀ c ∈ b, isBlank c = true) (hs : LexesBefore s ts) :
    LexesBefore (b ++ s) ts := by
  induction b with
  | nil => exact hs
  | cons c b ih =>
      intro rest hrest
      rw [List.cons_append, List.cons_append, ofChars?_blank (hb c List.mem_cons_self)]
      exact ih (fun d hd => hb d (List.mem_cons_of_mem c hd)) rest hrest

theorem commas {items : List (List Char)} {runs : List (List Token)}
    (h : List.Forall₂ LexesBefore items runs) : LexesBefore (commas items) (commaTokens runs) := by
  induction h with
  | nil => exact of_lexes .nil
  | cons hfirst hrest ih =>
      cases hrest with
      | nil => exact hfirst
      | cons _ _ => exact hfirst.append rfl (lexes_append (.mark .comma) ih)

/-- The items of a container on lines of their own. -/
theorem block (opening closing : Mark) {o c : Char} (ho : opening.text = [o])
    (hc : closing.text = [c]) (depth : Nat) {items : List (List Char)} {runs : List (List Token)}
    (h : List.Forall₂ LexesBefore items runs) :
    Lexes (block o c depth items) (opening.token :: (commaTokens runs ++ [closing.token])) := by
  have hopen : Lexes [o] [opening.token] := ho ▸ Lexes.mark opening
  have hclose : Lexes [c] [closing.token] := hc ▸ Lexes.mark closing
  cases h with
  | nil => exact hopen.append hclose
  | cons hfirst hrest =>
      have hlines : ∀ {items : List (List Char)} {runs : List (List Token)},
          List.Forall₂ LexesBefore items runs →
          List.Forall₂ LexesBefore (items.map fun item => newLine (depth + 1) ++ item) runs := by
        intro items runs hall
        exact List.forall₂_map_left_iff.mpr
          (hall.imp fun _ _ h => h.blanks (isBlank_newLine (depth + 1)))
      have hbody := (commas (hlines (.cons hfirst hrest))).close rfl
        (hclose.blanks (isBlank_newLine depth))
      have hwhole := hopen.append hbody
      simpa [Json.block, Json.newLine, List.append_assoc] using hwhole

end LexesBefore

/-! ## printed values -/

mutual

/-- **A value on one line** is lexed as its tokens, before whatever ends a number. -/
theorem lexesBefore_print : ∀ v : Json, v.finite = true → LexesBefore v.print v.tokens
  | .null, _ => .of_lexes (.mark .null)
  | .bool true, _ => .of_lexes (.mark (.bool true))
  | .bool false, _ => .of_lexes (.mark (.bool false))
  | .number _, h => .number h
  | .string s, _ => .of_lexes (.mark (.string s))
  | .array items, h =>
      .of_lexes ((Lexes.mark .beginArray).append
        ((LexesBefore.commas (lexesBefore_printItems items h)).close rfl (.mark .endArray)))
  | .object members, h =>
      .of_lexes ((Lexes.mark .beginObject).append
        ((LexesBefore.commas (lexesBefore_printMembers members h)).close rfl (.mark .endObject)))

theorem lexesBefore_printItems : ∀ items : List Json, allInItems Number.isFinite items = true →
    List.Forall₂ LexesBefore (printItems items) (itemTokens items)
  | [], _ => .nil
  | v :: vs, h => by
      simp only [allInItems, Bool.and_eq_true] at h
      exact .cons (lexesBefore_print v h.1) (lexesBefore_printItems vs h.2)

theorem lexesBefore_printMembers : ∀ members : List (String × Json),
    allInMembers Number.isFinite members = true →
    List.Forall₂ LexesBefore (printMembers members) (memberTokens members)
  | [], _ => .nil
  | (k, v) :: ms, h => by
      simp only [allInMembers, Bool.and_eq_true] at h
      have hvalue := LexesBefore.lexes_append (lexes_key k)
        (LexesBefore.lexes_append (.mark .colon) (lexesBefore_print v h.1))
      exact .cons hvalue (lexesBefore_printMembers ms h.2)

end

mutual

/-- **An indented value** is lexed as its tokens, at any depth. -/
theorem lexesBefore_printAt : ∀ (v : Json) (depth : Nat), v.finite = true →
    LexesBefore (v.printAt depth) v.tokens
  | .null, _, _ => .of_lexes (.mark .null)
  | .bool true, _, _ => .of_lexes (.mark (.bool true))
  | .bool false, _, _ => .of_lexes (.mark (.bool false))
  | .number _, _, h => .number h
  | .string s, _, _ => .of_lexes (.mark (.string s))
  | .array items, depth, h =>
      .of_lexes (LexesBefore.block .beginArray .endArray rfl rfl depth
        (lexesBefore_printItemsAt items (depth + 1) h))
  | .object members, depth, h =>
      .of_lexes (LexesBefore.block .beginObject .endObject rfl rfl depth
        (lexesBefore_printMembersAt members (depth + 1) h))

theorem lexesBefore_printItemsAt : ∀ (items : List Json) (depth : Nat),
    allInItems Number.isFinite items = true →
    List.Forall₂ LexesBefore (printItemsAt depth items) (itemTokens items)
  | [], _, _ => .nil
  | v :: vs, depth, h => by
      simp only [allInItems, Bool.and_eq_true] at h
      exact .cons (lexesBefore_printAt v depth h.1) (lexesBefore_printItemsAt vs depth h.2)

theorem lexesBefore_printMembersAt : ∀ (members : List (String × Json)) (depth : Nat),
    allInMembers Number.isFinite members = true →
    List.Forall₂ LexesBefore (printMembersAt depth members) (memberTokens members)
  | [], _, _ => .nil
  | (k, v) :: ms, depth, h => by
      simp only [allInMembers, Bool.and_eq_true] at h
      have hkey := (lexes_key k).append ((Lexes.mark .colon).append (Lexes.nil.blank (c := ' ') rfl))
      have hvalue := LexesBefore.lexes_append hkey (lexesBefore_printAt v depth h.1)
      rw [List.append_assoc] at hvalue
      exact .cons hvalue (lexesBefore_printMembersAt ms depth h.2)

end

/-! ## the tree of a value -/

namespace Tree

/-- The first token of a value begins a value, so it is no end of an array. -/
theorem foldlM_firstItem (v : Json) (stack : List Frame) (ts : List Token) :
    (v.tokens ++ ts).foldlM step (.firstItem stack) =
      (v.tokens ++ ts).foldlM step (.value (.array [] :: stack)) := by
  cases v <;> rfl

mutual

/-- **The tokens of a value** spell its tree, where a value must come. -/
theorem foldlM_tokens : ∀ (v : Json) (stack : List Frame) (ts : List Token),
    (v.tokens ++ ts).foldlM step (.value stack) = ts.foldlM step (.after (ofJson v) stack)
  | .null, _, _ => rfl
  | .bool _, _, _ => rfl
  | .number _, _, _ => rfl
  | .string _, _, _ => rfl
  | .array [], _, _ => rfl
  | .array (v :: vs), stack, ts => by
      have hopen : ∀ us, (beginArray :: us).foldlM step (.value stack) =
          us.foldlM step (.firstItem stack) := fun _ => rfl
      simp only [tokens, itemTokens, commaTokens_cons, List.cons_append, List.append_assoc,
        List.nil_append]
      rw [hopen, foldlM_firstItem, foldlM_tokens v, foldlM_moreItems vs]
      rfl
  | .object [], _, _ => rfl
  | .object ((k, v) :: ms), stack, ts => by
      have hopen : ∀ us, (beginObject :: .string (some k) :: .colon :: us).foldlM step
          (.value stack) = us.foldlM step (.value (.object [] (some k) :: stack)) := fun _ => rfl
      simp only [tokens, memberTokens, commaTokens_cons, List.cons_append, List.append_assoc,
        List.nil_append]
      rw [hopen, foldlM_tokens v, foldlM_moreMembers ms]
      rfl

/-- The items behind another one, and the end of their array. -/
theorem foldlM_moreItems : ∀ (vs : List Json) (v : Tree) (before : List Tree)
    (stack : List Frame) (ts : List Token),
    ((itemTokens vs).flatMap (.comma :: ·) ++ .endArray :: ts).foldlM step
        (.after v (.array before :: stack)) =
      ts.foldlM step (.after (.array (before.reverse ++ v :: ofItems vs)) stack)
  | [], v, before, stack, ts => by
      have hclose : (endArray :: ts).foldlM step (.after v (.array before :: stack)) =
          ts.foldlM step (.after (.array (v :: before).reverse) stack) := rfl
      rw [itemTokens, List.flatMap_nil, List.nil_append, hclose, List.reverse_cons]
      rfl
  | w :: vs, v, before, stack, ts => by
      have hcomma : ∀ us, (comma :: us).foldlM step (.after v (.array before :: stack)) =
          us.foldlM step (.value (.array (v :: before) :: stack)) := fun _ => rfl
      simp only [itemTokens, List.flatMap_cons, List.cons_append, List.append_assoc]
      rw [hcomma, foldlM_tokens w, foldlM_moreItems vs]
      simp [ofItems]

/-- The members behind another one, and the end of their object. -/
theorem foldlM_moreMembers : ∀ (ms : List (String × Json)) (key : Option String) (v : Tree)
    (before : List (Option String × Tree)) (stack : List Frame) (ts : List Token),
    ((memberTokens ms).flatMap (.comma :: ·) ++ .endObject :: ts).foldlM step
        (.after v (.object before key :: stack)) =
      ts.foldlM step (.after (.object (before.reverse ++ (key, v) :: ofMembers ms)) stack)
  | [], key, v, before, stack, ts => by
      have hclose : (endObject :: ts).foldlM step (.after v (.object before key :: stack)) =
          ts.foldlM step (.after (.object ((key, v) :: before).reverse) stack) := rfl
      rw [memberTokens, List.flatMap_nil, List.nil_append, hclose, List.reverse_cons]
      rfl
  | (k, w) :: ms, key, v, before, stack, ts => by
      have hcomma : ∀ us, (comma :: .string (some k) :: .colon :: us).foldlM step
          (.after v (.object before key :: stack)) =
          us.foldlM step (.value (.object ((key, v) :: before) (some k) :: stack)) := fun _ => rfl
      simp only [memberTokens, List.flatMap_cons, List.cons_append, List.append_assoc]
      rw [hcomma, foldlM_tokens w, foldlM_moreMembers ms]
      simp [ofMembers]

end

theorem ofTokens?_tokens (v : Json) : ofTokens? v.tokens = some (ofJson v) := by
  have h := foldlM_tokens v [] []
  rw [List.append_nil] at h
  exact ofTokens?_eq_some_iff.mpr h

theorem parse?_of_lexesBefore {v : Json} {s : List Char} (h : LexesBefore s v.tokens) :
    parse? (String.ofList s) = some (ofJson v) := by
  have hs := h [] ends_nil
  rw [List.append_nil, ofChars?_nil, Option.map_some, List.append_nil] at hs
  rw [parse?, String.toList_ofList, hs, Option.bind_some, ofTokens?_tokens]

/-- **Indented values are read back.** -/
theorem parse?_pretty {v : Json} (h : v.finite = true) : parse? v.pretty = some (ofJson v) :=
  parse?_of_lexesBefore (lexesBefore_printAt v 0 h)

/-- **Indented values are read back** from a text that ends in a line break. -/
theorem parse?_pretty_break {v : Json} (h : v.finite = true) :
    parse? (v.pretty ++ "\n") = some (ofJson v) := by
  have hbreak : v.pretty ++ "\n" = String.ofList (v.printAt 0 ++ ['\n']) := by
    rw [String.ofList_append]
    rfl
  have hlexes := (lexesBefore_printAt v 0 h).close rfl (Lexes.nil.blank (c := '\n') rfl)
  rw [List.append_nil] at hlexes
  rw [hbreak, parse?_of_lexesBefore (.of_lexes hlexes)]

/-- **Values on one line are read back.** -/
theorem parse?_compact {v : Json} (h : v.finite = true) :
    parse? v.compact = some (ofJson v) := parse?_of_lexesBefore (lexesBefore_print v h)

end Tree

/-! ## values on one line -/

/-- A text that holds no control character, so no break of a line either. -/
def OneLine (s : List Char) : Prop := ∀ c ∈ s, 0x20 ≤ c.toNat

instance (s : List Char) : Decidable (OneLine s) :=
  List.decidableBAll (fun c : Char => 0x20 ≤ c.toNat) s

namespace OneLine

variable {s t : List Char} {c : Char}

theorem cons (hc : 0x20 ≤ c.toNat) (hs : OneLine s) : OneLine (c :: s) :=
  List.forall_mem_cons.mpr ⟨hc, hs⟩

theorem append (hs : OneLine s) (ht : OneLine t) : OneLine (s ++ t) :=
  List.forall_mem_append.mpr ⟨hs, ht⟩

theorem enclose {d : Char} (hc : 0x20 ≤ c.toNat) (hs : OneLine s) (hd : 0x20 ≤ d.toNat) :
    OneLine (c :: (s ++ [d])) := .cons hc (hs.append (.cons hd nofun))

theorem notMem (hs : OneLine s) (hc : c.toNat < 0x20) : c ∉ s :=
  fun hmem => absurd (hs c hmem) (Nat.not_le.mpr hc)

theorem escapeChar (c : Char) : OneLine (escapeChar c) := by
  have hhex : ∀ n < 16, 0x20 ≤ (hexDigit n).toNat := by decide
  unfold Json.escapeChar
  split
  · decide
  split
  · decide
  split
  · decide
  split
  · decide
  split
  · decide
  split
  · decide
  split
  · decide
  split
  · next hlow =>
    simp [OneLine, hhex (c.toNat / 16) (by omega), hhex (c.toNat % 16) (by omega)]
  · next hhigh =>
    simpa [OneLine] using hhigh

theorem quote (s : String) : OneLine (quote s) := by
  refine .enclose (by decide) (fun c hc => ?_) (by decide)
  obtain ⟨d, _, hd⟩ := List.mem_flatMap.mp hc
  exact escapeChar d c hd

theorem digits {ds : List Char} (h : ∀ c ∈ ds, c.isDigit = true) : OneLine ds := by
  intro c hc
  have hdigit := h c hc
  simp only [Char.isDigit, Bool.and_eq_true, decide_eq_true_eq, UInt32.le_iff_toNat_le] at hdigit
  exact Nat.le_trans (by decide) hdigit.1

theorem literal {l : Literal} (hl : l.WellFormed) : OneLine l.print := by
  obtain ⟨hwhole, hfraction⟩ := List.forall_mem_append.mp hl.digits
  have hsign : OneLine (Literal.sign l.negative) := by
    cases l.negative <;> decide
  have hpoint : OneLine (Literal.printFraction l.fraction) := by
    cases hds : l.fraction with
    | nil => nofun
    | cons d ds => exact .cons (by decide) (digits (hds ▸ hfraction))
  have hexponent : OneLine (Literal.printExponent l.exponent) := by
    match he : l.exponent with
    | none => nofun
    | some (negative, ds) =>
        have hds := digits (hl.exponent _ he).2
        cases negative <;> exact .cons (by decide) (.cons (by decide) hds)
  exact hsign.append ((digits hwhole).append (hpoint.append hexponent))

theorem number {n : Number} (hn : n.isFinite = true) : OneLine n.print := by
  obtain ⟨l, hl, hprint, -⟩ := n.exists_literal hn
  rw [hprint]
  exact literal hl

theorem commas {items : List (List Char)} (h : ∀ t ∈ items, OneLine t) :
    OneLine (commas items) := by
  fun_induction Json.commas items with
  | case1 => nofun
  | case2 t => exact h t List.mem_cons_self
  | case3 t ts _ ih =>
      obtain ⟨ht, hts⟩ := List.forall_mem_cons.mp h
      exact ht.append (.cons (by decide) (ih hts))

end OneLine

mutual

/-- **A value whose floats are finite is printed on one line.** -/
theorem oneLine_print : ∀ v : Json, v.finite = true → OneLine v.print
  | .null, _ => by decide
  | .bool true, _ => by decide
  | .bool false, _ => by decide
  | .number _, h => .number h
  | .string s, _ => .quote s
  | .array items, h => .enclose (by decide) (.commas (oneLine_printItems items h)) (by decide)
  | .object members, h =>
      .enclose (by decide) (.commas (oneLine_printMembers members h)) (by decide)

theorem oneLine_printItems : ∀ items : List Json, allInItems Number.isFinite items = true →
    ∀ t ∈ printItems items, OneLine t
  | [], _ => nofun
  | v :: vs, h => by
      simp only [allInItems, Bool.and_eq_true] at h
      exact List.forall_mem_cons.mpr ⟨oneLine_print v h.1, oneLine_printItems vs h.2⟩

theorem oneLine_printMembers : ∀ members : List (String × Json),
    allInMembers Number.isFinite members = true → ∀ t ∈ printMembers members, OneLine t
  | [], _ => nofun
  | (k, v) :: ms, h => by
      simp only [allInMembers, Bool.and_eq_true] at h
      have hmember : OneLine (Json.quote k ++ ':' :: v.print) :=
        (OneLine.quote k).append (.cons (by decide) (oneLine_print v h.1))
      exact List.forall_mem_cons.mpr ⟨hmember, oneLine_printMembers ms h.2⟩

end

end InstallAssistant.Json
