import InstallAssistant.Markup
import InstallAssistant.Proofs.Text.Utf8
import Mathlib.Data.List.Infix

/-!
# InstallAssistant.Proofs.Text.Slice

Parts of a text by the positions of their bytes.  There is a part between two
positions exactly if they are in order, within the text, and between its
characters (`exists_slice?_iff`); where the characters before, between and behind
two positions are known, so is the part (`slice?_between`).

A test for ASCII characters can be made byte by byte (`AsciiOnly.reads`): no byte of
any other character passes it.
-/

namespace InstallAssistant.Text

open Utf8
open Markup (byteLength)

/-! ## lengths -/

@[simp] theorem encodeChars_nil : encodeChars [] = [] := rfl

@[simp] theorem encodeChars_cons (c : Char) (s : List Char) :
    encodeChars (c :: s) = encodeChar c ++ encodeChars s := rfl

@[simp] theorem encodeChars_append (x y : List Char) :
    encodeChars (x ++ y) = encodeChars x ++ encodeChars y := List.flatMap_append

@[simp] theorem byteLength_nil : byteLength [] = 0 := rfl

@[simp] theorem byteLength_cons (c : Char) (s : List Char) :
    byteLength (c :: s) = c.utf8Size + byteLength s := rfl

@[simp] theorem byteLength_append (x y : List Char) :
    byteLength (x ++ y) = byteLength x + byteLength y := by
  induction x with
  | nil => simp
  | cons c x ih =>
      simp only [List.cons_append, byteLength_cons, ih]
      omega

theorem length_encodeChar (c : Char) : (encodeChar c).length = c.utf8Size := by
  have hle : ∀ {n : Nat} (h : n < UInt32.size), c.val ≤ UInt32.ofNatLT n h ↔ c.toNat < n + 1 := by
    intro n h
    rw [UInt32.le_iff_toNat_le, UInt32.toNat_ofNatLT, Nat.lt_succ_iff]
    rfl
  simp only [encodeChar, Char.utf8Size, hle, apply_ite List.length, List.length_cons,
    List.length_nil]

@[simp] theorem length_encodeChars (s : List Char) : (encodeChars s).length = byteLength s := by
  induction s with
  | nil => rfl
  | cons c s ih => simp [ih, length_encodeChar]

theorem length_le_byteLength (s : List Char) : s.length ≤ byteLength s := by
  induction s with
  | nil => exact Nat.le_refl 0
  | cons c s ih =>
      have hpos := c.utf8Size_pos
      simp only [List.length_cons, byteLength_cons]
      omega

theorem byteLength_of_ascii {s : List Char} (h : ∀ c ∈ s, c.toNat < 0x80) :
    byteLength s = s.length := by
  induction s with
  | nil => rfl
  | cons c s ih =>
      have hc : c.utf8Size = 1 := by
        rw [← length_encodeChar, encodeChar, if_pos (h c List.mem_cons_self)]
        rfl
      rw [byteLength_cons, hc, ih fun d hd => h d (List.mem_cons_of_mem c hd), List.length_cons,
        Nat.add_comm]

/-- Bytes begin with those of a text exactly when the characters begin with the text. -/
theorem isPrefix_encodeChars_iff {p s : List Char} :
    encodeChars p <+: encodeChars s ↔ p <+: s := by
  have hread : ∀ x bytes, symbols (encodeChars x ++ bytes) = x.map some ++ symbols bytes := by
    intro x bytes
    induction x with
    | nil => rfl
    | cons c x ih =>
        rw [encodeChars_cons, List.append_assoc, symbols, symbolsFrom_encodeChar_append, ← symbols,
          ih, List.map_cons, List.cons_append]
  constructor
  · rintro ⟨bytes, hbytes⟩
    have hmap : p.map some <+: s.map some :=
      ⟨symbols bytes, by rw [← hread, hbytes, symbols_encodeChars]⟩
    exact (List.prefix_map_iff_of_injective fun _ _ => Option.some.inj).mp hmap
  · rintro ⟨rest, rfl⟩
    exact ⟨encodeChars rest, (encodeChars_append p rest).symm⟩

/-! ## borders of characters -/

/-- Whether a byte goes on with a character. -/
def isContinuation (b : UInt8) : Bool := decide (0x80 ≤ b.toNat) && decide (b.toNat ≤ 0xBF)

/-- Whether a position lies between two characters, or at either end. -/
def isBorder (bytes : List UInt8) (i : Nat) : Bool :=
  match bytes[i]? with
  | some b => !isContinuation b
  | none => i == bytes.length

theorem isBorder_of_getElem? {bytes : List UInt8} {i : Nat} {b : UInt8} (h : bytes[i]? = some b) :
    isBorder bytes i = !isContinuation b := by
  rw [isBorder, h]

theorem isBorder_append_add (x y : List UInt8) (i : Nat) :
    isBorder (x ++ y) (x.length + i) = isBorder y i := by
  have hget : (x ++ y)[x.length + i]? = y[i]? := by
    rw [List.getElem?_append_right (by omega), Nat.add_sub_cancel_left]
  rw [isBorder, isBorder, hget]
  cases y[i]? with
  | some b => rfl
  | none => simp

/-- The first byte of a character is the only one that does not go on with it. -/
theorem exists_encodeChar_eq_cons (c : Char) :
    ∃ b bs, encodeChar c = b :: bs ∧ isContinuation b = false ∧
      ∀ d ∈ bs, isContinuation d = true := by
  have hvalid : c.toNat < 0xD800 ∨ (0xDFFF < c.toNat ∧ c.toNat < 0x110000) := c.valid
  have hlead : ∀ n, n < 0x80 ∨ (0xBF < n ∧ n < 256) → isContinuation (UInt8.ofNat n) = false := by
    intro n hn
    simp only [isContinuation, toNat_ofNat_byte (show n < 256 by omega), Bool.and_eq_false_iff,
      decide_eq_false_iff_not]
    omega
  have hnext : ∀ l : List Nat, ∀ d ∈ l.map fun n => UInt8.ofNat (0x80 + n % 64),
      isContinuation d = true := by
    intro l d hd
    obtain ⟨n, _, rfl⟩ := List.mem_map.mp hd
    simp only [isContinuation, toNat_ofNat_byte (show 0x80 + n % 64 < 256 by omega),
      Bool.and_eq_true, decide_eq_true_eq]
    omega
  unfold encodeChar
  by_cases h₁ : c.toNat < 0x80
  · simp only [if_pos h₁]
    exact ⟨_, _, rfl, hlead _ (by omega), hnext []⟩
  by_cases h₂ : c.toNat < 0x800
  · simp only [if_neg h₁, if_pos h₂]
    exact ⟨_, _, rfl, hlead _ (by omega), hnext [c.toNat]⟩
  by_cases h₃ : c.toNat < 0x10000
  · simp only [if_neg h₁, if_neg h₂, if_pos h₃]
    exact ⟨_, _, rfl, hlead _ (by omega), hnext [c.toNat / 64, c.toNat]⟩
  · simp only [if_neg h₁, if_neg h₂, if_neg h₃]
    exact ⟨_, _, rfl, hlead _ (by omega), hnext [c.toNat / 4096, c.toNat / 64, c.toNat]⟩

theorem encodeChar_ne_nil (c : Char) : encodeChar c ≠ [] := by
  obtain ⟨b, bs, hbytes, _⟩ := exists_encodeChar_eq_cons c
  simp [hbytes]

/-- **The borders of a text** are the places where it can be cut in two. -/
theorem isBorder_encodeChars_iff {s : List Char} {i : Nat} :
    isBorder (encodeChars s) i = true ↔ ∃ x y, s = x ++ y ∧ i = byteLength x := by
  constructor
  · intro h
    induction s generalizing i with
    | nil => exact ⟨[], [], rfl, by simpa [isBorder] using h⟩
    | cons c s ih =>
        obtain ⟨b, bs, hbytes, _, hnext⟩ := exists_encodeChar_eq_cons c
        by_cases hi : i = 0
        · exact ⟨[], c :: s, rfl, hi⟩
        by_cases hin : i < (encodeChar c).length
        · -- inside of the first character there are only bytes that go on with it
          have hget : (encodeChars (c :: s))[i]? = some (encodeChar c)[i] := by
            rw [encodeChars_cons, List.getElem?_append_left hin, List.getElem?_eq_getElem hin]
          have hmem : (encodeChar c)[i] ∈ bs := by
            obtain ⟨j, rfl⟩ := Nat.exists_eq_succ_of_ne_zero hi
            simp only [hbytes, List.getElem_cons_succ, List.getElem_mem]
          rw [isBorder_of_getElem? hget, hnext _ hmem] at h
          contradiction
        · obtain ⟨j, rfl⟩ := Nat.exists_eq_add_of_le (Nat.le_of_not_lt hin)
          rw [encodeChars_cons, isBorder_append_add] at h
          obtain ⟨x, y, rfl, rfl⟩ := ih h
          exact ⟨c :: x, y, rfl, by rw [byteLength_cons, length_encodeChar]⟩
  · rintro ⟨x, y, rfl, rfl⟩
    cases y with
    | nil => simp [isBorder]
    | cons c y =>
        obtain ⟨b, bs, hbytes, hlead, _⟩ := exists_encodeChar_eq_cons c
        simp [isBorder, hbytes, hlead]

/-! ## slices -/

/-- The part of a text from one position up to another. -/
def slice? (s : List Char) (start stop : Nat) : Option (List Char) :=
  let bytes := encodeChars s
  if start ≤ stop ∧ stop ≤ bytes.length ∧ isBorder bytes start ∧ isBorder bytes stop then
    decode? ((bytes.drop start).take (stop - start))
  else none

theorem slice?_append (x y z : List Char) :
    slice? (x ++ y ++ z) (byteLength x) (byteLength x + byteLength y) = some y := by
  have hstart : isBorder (encodeChars (x ++ y ++ z)) (byteLength x) = true :=
    isBorder_encodeChars_iff.mpr ⟨x, y ++ z, by simp, rfl⟩
  have hstop : isBorder (encodeChars (x ++ y ++ z)) (byteLength x + byteLength y) = true :=
    isBorder_encodeChars_iff.mpr ⟨x ++ y, z, rfl, by simp⟩
  have hlength : byteLength x + byteLength y ≤ (encodeChars (x ++ y ++ z)).length := by simp
  have hbytes : ((encodeChars (x ++ y ++ z)).drop (byteLength x)).take (byteLength y) =
      encodeChars y := by
    simp [← length_encodeChars]
  unfold slice?
  rw [if_pos ⟨by omega, hlength, hstart, hstop⟩, Nat.add_sub_cancel_left, hbytes,
    decode?_encodeChars]

/-- Of two beginnings of a text, the one with fewer bytes is a beginning of the other. -/
theorem isPrefix_of_byteLength_le {x x' s : List Char} (hx : x <+: s) (hx' : x' <+: s)
    (h : byteLength x ≤ byteLength x') : x <+: x' := by
  rcases List.prefix_or_prefix_of_prefix hx hx' with hpre | ⟨y, rfl⟩
  · exact hpre
  · have hy : y = [] := by
      have hle := length_le_byteLength y
      rw [byteLength_append] at h
      exact List.length_eq_zero_iff.mp (by omega)
    rw [hy, List.append_nil]

/-- **Positions in order and between characters make a slice**, and nothing else does. -/
theorem exists_slice?_iff {s : List Char} {start stop : Nat} :
    (∃ y, slice? s start stop = some y) ↔
      start ≤ stop ∧ stop ≤ (encodeChars s).length ∧ isBorder (encodeChars s) start = true ∧
        isBorder (encodeChars s) stop = true := by
  constructor
  · rintro ⟨y, hy⟩
    by_contra h
    rw [slice?, if_neg h] at hy
    contradiction
  · rintro ⟨hle, _, hstart, hstop⟩
    obtain ⟨x, t, hs, rfl⟩ := isBorder_encodeChars_iff.mp hstart
    obtain ⟨x', z, rfl, rfl⟩ := isBorder_encodeChars_iff.mp hstop
    obtain ⟨y, rfl⟩ := isPrefix_of_byteLength_le ⟨t, hs.symm⟩ (List.prefix_append x' z) hle
    rw [byteLength_append]
    exact ⟨y, slice?_append x y z⟩

/-- A position within a character starts no slice. -/
example : slice? ['\xe4', 'b'] 1 3 = none ∧ slice? ['\xe4', 'b'] 2 3 = some ['b'] := by decide

section

variable {s x y z : List Char}

theorem slice?_between (h : s = x ++ y ++ z) :
    slice? s (byteLength x) (byteLength (x ++ y)) = some y := by
  rw [h, byteLength_append]
  exact slice?_append x y z

theorem slice?_front (h : s = y ++ z) : slice? s 0 (byteLength y) = some y :=
  slice?_between (x := []) h

theorem slice?_rest (h : s = x ++ y) : slice? s (byteLength x) (byteLength s) = some y := by
  have hslice := slice?_between (h.trans (List.append_nil _).symm)
  rwa [← h] at hslice

end

/-! ## tests of single bytes -/

/-- Whether a byte is an ASCII character that passes a test. -/
def onByte (f : Char → Bool) (b : UInt8) : Bool :=
  decide (b.toNat < 0x80) && f (Char.ofNat b.toNat)

/-- The test on bytes says of each byte of a character what the other says of the character. -/
def Reads (g : UInt8 → Bool) (f : Char → Bool) : Prop := ∀ c, ∀ b ∈ encodeChar c, g b = f c

/-- The test is passed by ASCII characters only. -/
def AsciiOnly (f : Char → Bool) : Prop := ∀ c, f c = true → c.toNat < 0x80

/-- **ASCII is read byte by byte**: no byte of another character is taken for one of it. -/
theorem AsciiOnly.reads {f : Char → Bool} (hf : AsciiOnly f) : Reads (onByte f) f := by
  intro c b hb
  by_cases hc : c.toNat < 0x80
  · have hbyte : b = UInt8.ofNat c.toNat := by simpa [encodeChar, hc] using hb
    rw [hbyte, onByte, toNat_ofNat_byte (by omega), Char.ofNat_toNat, decide_eq_true hc,
      Bool.true_and]
  · have hvalid : c.toNat < 0xD800 ∨ (0xDFFF < c.toNat ∧ c.toNat < 0x110000) := c.valid
    have hfc : f c = false := Bool.eq_false_iff.mpr fun h => hc (hf c h)
    have hbyte : 0x80 ≤ b.toNat := by
      simp only [encodeChar, if_neg hc] at hb
      split_ifs at hb
      all_goals
        simp only [List.mem_cons, List.not_mem_nil, or_false] at hb
        rcases hb with rfl | rfl | rfl | rfl <;> rw [toNat_ofNat_byte (by omega)] <;> omega
    rw [hfc, onByte, decide_eq_false (by omega), Bool.false_and]

theorem asciiOnly_beq {d : Char} (hd : d.toNat < 0x80) : AsciiOnly (· == d) := by
  intro c hc
  rwa [beq_iff_eq.mp hc]

/-- A byte of a character is the byte of an ASCII character only if it is that character. -/
theorem byte_eq_iff_of_ascii {c d : Char} (hd : d.toNat < 0x80) {b b' : UInt8}
    (hb : b ∈ encodeChar c) (hb' : b' ∈ encodeChar d) : b = b' ↔ c = d := by
  constructor
  · rintro rfl
    have hc := (asciiOnly_beq hd).reads c b hb
    rw [(asciiOnly_beq hd).reads d b hb'] at hc
    simpa using hc
  · rintro rfl
    simp only [encodeChar, if_pos hd, List.mem_singleton] at hb hb'
    rw [hb, hb']

theorem asciiOnly_isAlphanum : AsciiOnly Char.isAlphanum := by
  intro c hc
  have hle : ∀ d : Char, d.toNat < 0x80 → c.val ≤ d.val → c.toNat < 0x80 := fun d hd h =>
    Nat.lt_of_le_of_lt (UInt32.le_iff_toNat_le.mp h) hd
  have hcases : (c.isUpper = true ∨ c.isLower = true) ∨ c.isDigit = true :=
    (Bool.or_eq_true_iff.mp hc).imp_left Bool.or_eq_true_iff.mp
  rcases hcases with (hupper | hlower) | hdigit
  · exact hle 'Z' (by decide) (of_decide_eq_true hupper).2
  · exact hle 'z' (by decide) (of_decide_eq_true (Bool.and_eq_true_iff.mp hlower).2)
  · exact hle '9' (by decide) (of_decide_eq_true (Bool.and_eq_true_iff.mp hdigit).2)

/-- A test for letters, digits and some more ASCII characters. -/
theorem asciiOnly_of_mem {f : Char → Bool} {l : List Char} (hl : ∀ d ∈ l, d.toNat < 0x80)
    (h : ∀ c, f c = true → c.isAlphanum = true ∨ c ∈ l) : AsciiOnly f := by
  intro c hc
  rcases h c hc with halnum | hmem
  · exact asciiOnly_isAlphanum c halnum
  · exact hl c hmem

namespace Reads

variable {g : UInt8 → Bool} {f : Char → Bool}

theorem not (h : Reads g f) : Reads (fun b => !g b) fun c => !f c := by
  intro c b hb
  simp only [h c b hb]

theorem takeWhile_encodeChars (h : Reads g f) (s : List Char) :
    (encodeChars s).takeWhile g = encodeChars (s.takeWhile f) := by
  induction s with
  | nil => rfl
  | cons c s ih =>
      obtain ⟨b, bs, hbytes, _⟩ := exists_encodeChar_eq_cons c
      by_cases hc : f c = true
      · have hall : ∀ b ∈ encodeChar c, g b = true := fun b hb => (h c b hb).trans hc
        rw [encodeChars_cons, List.takeWhile_append_of_pos hall, ih, List.takeWhile_cons_of_pos hc,
          encodeChars_cons]
      · have hb : g b ≠ true := by rwa [h c b (by simp [hbytes])]
        rw [encodeChars_cons, hbytes, List.cons_append, List.takeWhile_cons_of_neg hb,
          List.takeWhile_cons_of_neg hc, encodeChars_nil]

theorem dropWhile_encodeChars (h : Reads g f) (s : List Char) :
    (encodeChars s).dropWhile g = encodeChars (s.dropWhile f) := by
  have hbytes : (encodeChars s).takeWhile g ++ (encodeChars s).dropWhile g =
      (encodeChars s).takeWhile g ++ encodeChars (s.dropWhile f) := by
    rw [List.takeWhile_append_dropWhile, h.takeWhile_encodeChars, ← encodeChars_append,
      List.takeWhile_append_dropWhile]
  exact List.append_cancel_left hbytes

end Reads

end InstallAssistant.Text
