import InstallAssistant.Text.Utf8

/-!
# InstallAssistant.Proofs.Text.Utf8

Texts come back from their bytes (`decodeLossy_encode`): a character is read off
the front of its own bytes, whatever follows them (`symbolsFrom_encodeChar_append`).
-/

namespace InstallAssistant.Text.Utf8

theorem encode_append (s t : String) : encode (s ++ t) = encode s ++ encode t := by
  rw [encode, String.toList_append]
  exact List.flatMap_append

/-! ## single bytes -/

theorem toNat_ofNat_byte {n : Nat} (h : n < 256) : (UInt8.ofNat n).toNat = n := by
  rw [UInt8.toNat_ofNat', Nat.mod_eq_of_lt h]

/-- A byte that continues a character adds six bits to its number. -/
theorem step_within (value : Nat) {remaining low high n : Nat} (hn : n < 64) (hlow : low ≤ 0x80 + n)
    (hhigh : 0x80 + n ≤ high) (hr : 1 < remaining) :
    step (.within remaining value low high) (UInt8.ofNat (0x80 + n)) =
      ([], .within (remaining - 1) (value * 64 + n) 0x80 0xBF) := by
  have hb : (UInt8.ofNat (0x80 + n)).toNat = 0x80 + n := toNat_ofNat_byte (by omega)
  rw [step, hb, if_pos ⟨hlow, hhigh⟩, if_neg (by omega), Nat.add_sub_cancel_left]

theorem step_last (value : Nat) {low high n : Nat} (hn : n < 64) (hlow : low ≤ 0x80 + n)
    (hhigh : 0x80 + n ≤ high) :
    step (.within 1 value low high) (UInt8.ofNat (0x80 + n)) =
      ([some (Char.ofNat (value * 64 + n))], .between) := by
  have hb : (UInt8.ofNat (0x80 + n)).toNat = 0x80 + n := toNat_ofNat_byte (by omega)
  rw [step, hb, if_pos ⟨hlow, hhigh⟩, if_pos (Nat.le_refl 1), Nat.add_sub_cancel_left]

theorem step_ascii {v : Nat} (h : v < 0x80) :
    step .between (UInt8.ofNat v) = ([some (Char.ofNat v)], .between) := by
  rw [step, lead, toNat_ofNat_byte (by omega), if_pos h]

theorem step_two {v : Nat} (h : 0x80 ≤ v) (h' : v < 0x800) :
    step .between (UInt8.ofNat (0xC0 + v / 64)) = ([], .within 1 (v / 64) 0x80 0xBF) := by
  rw [step, lead, toNat_ofNat_byte (by omega), if_neg (by omega), if_pos (by omega),
    Nat.add_sub_cancel_left]

/-- The first of three bytes, and a range that holds the second one. -/
theorem exists_step_three {v : Nat} (h : 0x800 ≤ v) (h' : v < 0x10000)
    (hs : v < 0xD800 ∨ 0xDFFF < v) :
    ∃ low high,
      step .between (UInt8.ofNat (0xE0 + v / 4096)) = ([], .within 2 (v / 4096) low high) ∧
      low ≤ 0x80 + v / 64 % 64 ∧ 0x80 + v / 64 % 64 ≤ high := by
  have hb : (UInt8.ofNat (0xE0 + v / 4096)).toNat = 0xE0 + v / 4096 := toNat_ofNat_byte (by omega)
  rw [step, lead, hb, if_neg (by omega), if_neg (by omega)]
  by_cases h₀ : v / 4096 = 0
  · rw [if_pos (by omega), h₀]
    exact ⟨_, _, rfl, by omega, by omega⟩
  · rw [if_neg (by omega)]
    by_cases h₁ : v / 4096 = 0xD
    · rw [if_pos (by omega), h₁]
      exact ⟨_, _, rfl, by omega, by omega⟩
    · rw [if_neg (by omega), if_pos (by omega), Nat.add_sub_cancel_left]
      exact ⟨_, _, rfl, by omega, by omega⟩

/-- The first of four bytes, and a range that holds the second one. -/
theorem exists_step_four {v : Nat} (h : 0x10000 ≤ v) (h' : v < 0x110000) :
    ∃ low high,
      step .between (UInt8.ofNat (0xF0 + v / 262144)) = ([], .within 3 (v / 262144) low high) ∧
      low ≤ 0x80 + v / 4096 % 64 ∧ 0x80 + v / 4096 % 64 ≤ high := by
  have hb : (UInt8.ofNat (0xF0 + v / 262144)).toNat = 0xF0 + v / 262144 :=
    toNat_ofNat_byte (by omega)
  rw [step, lead, hb, if_neg (by omega), if_neg (by omega), if_neg (by omega), if_neg (by omega),
    if_neg (by omega)]
  by_cases h₀ : v / 262144 = 0
  · rw [if_pos (by omega), h₀]
    exact ⟨_, _, rfl, by omega, by omega⟩
  · rw [if_neg (by omega)]
    by_cases h₁ : v / 262144 = 4
    · rw [if_neg (by omega), if_pos (by omega), h₁]
      exact ⟨_, _, rfl, by omega, by omega⟩
    · rw [if_pos (by omega), Nat.add_sub_cancel_left]
      exact ⟨_, _, rfl, by omega, by omega⟩

/-! ## characters -/

theorem symbolsFrom_cons_of_step {p q : Progress} {b : UInt8} {out : List (Option Char)}
    (h : step p b = (out, q)) (bytes : List UInt8) :
    symbolsFrom p (b :: bytes) = out ++ symbolsFrom q bytes := by
  rw [symbolsFrom.eq_3 _ _ _, h]

/-- **A character is read off its own bytes**, and nothing of what follows them. -/
theorem symbolsFrom_encodeChar_append (c : Char) (bytes : List UInt8) :
    symbolsFrom .between (encodeChar c ++ bytes) = some c :: symbolsFrom .between bytes := by
  have hvalid : c.toNat < 0xD800 ∨ (0xDFFF < c.toNat ∧ c.toNat < 0x110000) := c.valid
  -- six bits of the number, as every byte but the first holds them
  have hlast : ∀ value low high, low ≤ 0x80 + c.toNat % 64 → 0x80 + c.toNat % 64 ≤ high →
      value * 64 + c.toNat % 64 = c.toNat →
      step (.within 1 value low high) (UInt8.ofNat (0x80 + c.toNat % 64)) =
        ([some c], .between) := by
    intro value low high hlow hhigh hvalue
    rw [step_last value (by omega) hlow hhigh, hvalue, Char.ofNat_toNat]
  rw [encodeChar]
  by_cases h₁ : c.toNat < 0x80
  · rw [if_pos h₁, List.singleton_append, symbolsFrom_cons_of_step (step_ascii h₁),
      Char.ofNat_toNat]
    rfl
  rw [if_neg h₁]
  by_cases h₂ : c.toNat < 0x800
  · have hend := hlast (c.toNat / 64) 0x80 0xBF (by omega) (by omega) (by omega)
    rw [if_pos h₂, List.cons_append, List.singleton_append,
      symbolsFrom_cons_of_step (step_two (Nat.le_of_not_lt h₁) h₂),
      symbolsFrom_cons_of_step hend]
    rfl
  rw [if_neg h₂]
  by_cases h₃ : c.toNat < 0x10000
  · obtain ⟨low, high, hlead, hlow, hhigh⟩ := exists_step_three (by omega) h₃ (by omega)
    have hsecond := step_within (c.toNat / 4096) (by omega) hlow hhigh (by decide : 1 < 2)
    have hend := hlast (c.toNat / 4096 * 64 + c.toNat / 64 % 64) 0x80 0xBF (by omega) (by omega)
      (by omega)
    rw [if_pos h₃, List.cons_append, List.cons_append, List.singleton_append,
      symbolsFrom_cons_of_step hlead, symbolsFrom_cons_of_step hsecond,
      symbolsFrom_cons_of_step hend]
    rfl
  rw [if_neg h₃]
  obtain ⟨low, high, hlead, hlow, hhigh⟩ := exists_step_four (Nat.le_of_not_lt h₃) (by omega)
  have hsecond := step_within (c.toNat / 262144) (by omega) hlow hhigh (by decide : 1 < 3)
  have hthird : step (.within 2 (c.toNat / 262144 * 64 + c.toNat / 4096 % 64) 0x80 0xBF)
      (UInt8.ofNat (0x80 + c.toNat / 64 % 64)) =
        ([], .within 1 ((c.toNat / 262144 * 64 + c.toNat / 4096 % 64) * 64 + c.toNat / 64 % 64)
          0x80 0xBF) :=
    step_within _ (by omega) (by omega) (by omega) (by decide)
  have hend := hlast ((c.toNat / 262144 * 64 + c.toNat / 4096 % 64) * 64 + c.toNat / 64 % 64) 0x80
    0xBF (by omega) (by omega) (by omega)
  rw [List.cons_append, List.cons_append, List.cons_append, List.singleton_append,
    symbolsFrom_cons_of_step hlead, symbolsFrom_cons_of_step hsecond,
    symbolsFrom_cons_of_step hthird, symbolsFrom_cons_of_step hend]
  rfl

/-- **Texts come back from their bytes.** -/
theorem symbols_encodeChars (s : List Char) : symbols (encodeChars s) = s.map some := by
  induction s with
  | nil => rfl
  | cons c cs ih =>
      have hcons : encodeChars (c :: cs) = encodeChar c ++ encodeChars cs := rfl
      rw [symbols, hcons, symbolsFrom_encodeChar_append, ← symbols, ih]
      rfl

theorem decode?_encodeChars (s : List Char) : decode? (encodeChars s) = some s := by
  rw [decode?, symbols_encodeChars]
  induction s with
  | nil => rfl
  | cons c s ih => simp [List.mapM_cons, ih]

theorem decodeLossy_encode (text : String) : String.ofList (decodeLossy (encode text)) = text := by
  have hmap : (text.toList.map some).map (fun symbol => symbol.getD '\ufffd') = text.toList := by
    rw [List.map_map]
    exact List.map_id _
  rw [decodeLossy, encode, symbols_encodeChars, hmap, String.ofList_toList]

end InstallAssistant.Text.Utf8
