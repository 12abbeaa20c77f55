import InstallAssistant.Encoder.Bytes
import InstallAssistant.Proofs.Text.Utf8

/-!
# InstallAssistant.Proofs.Encoder.Bytes

The encoder of bytes: ids of bytes are none of the reserved ones, they come back
as the bytes (`bytes_map_idOf`), and a text comes back from its ids, with or
without special tokens (`decode_encode`).

What any ids are read as is said in one equation (`bytes_eq`): the first id that no
byte has is the error, and if there is none, reserved ids are passed over.  With the
laws of writing this makes the encoder lossless (`bytes_lossless`).
-/

namespace InstallAssistant.Encoder.Bytes

/-! ## ids of bytes -/

theorem toNat_idOf (b : UInt8) : (idOf b).toNat = b.toNat + 2 := by
  have hb := b.toNat_lt
  have htwo : (2 : UInt32).toNat = 2 := rfl
  rw [idOf, UInt32.toNat_add, UInt8.toNat_toUInt32, htwo]
  exact Nat.mod_eq_of_lt (by omega)

theorem idOf_ne_pad (b : UInt8) : idOf b ≠ padId := by
  intro h
  have hnat := congrArg UInt32.toNat h
  have hzero : padId.toNat = 0 := rfl
  rw [toNat_idOf, hzero] at hnat
  omega

theorem idOf_ne_begin (b : UInt8) : idOf b ≠ beginId := by
  intro h
  have hnat := congrArg UInt32.toNat h
  have hone : beginId.toNat = 1 := rfl
  rw [toNat_idOf, hone] at hnat
  omega

theorem byteOf_idOf (b : UInt8) : (idOf b - 2).toUInt8 = b := by
  rw [idOf, UInt32.add_sub_cancel]
  exact UInt8.toUInt8_toUInt32 b

/-! ## reading ids -/

theorem bytes_idOf_cons (b : UInt8) (ids : List UInt32) :
    bytes (idOf b :: ids) = (bytes ids).map (b :: ·) := by
  have hlt : idOf b < 258 := by
    rw [UInt32.lt_iff_toNat_lt, toNat_idOf]
    have hb := b.toNat_lt
    show b.toNat + 2 < 258
    omega
  rw [bytes, if_neg (not_or.mpr ⟨idOf_ne_pad b, idOf_ne_begin b⟩), if_pos hlt, byteOf_idOf]

/-- **Bytes come back from their ids.** -/
theorem bytes_map_idOf (bs : List UInt8) : bytes (bs.map idOf) = .ok bs := by
  induction bs with
  | nil => rfl
  | cons b bs ih =>
      rw [List.map_cons, bytes_idOf_cons, ih]
      rfl

theorem decode_map_idOf (text : String) : decode ((Text.Utf8.encode text).map idOf) = .ok text := by
  rw [decode, bytes_map_idOf]
  exact congrArg Except.ok (Text.Utf8.decodeLossy_encode text)

/-- **A text comes back from its ids**, with special tokens or without them. -/
theorem decode_encode (text : String) (special : Bool) :
    decode (encode text special) = .ok text := by
  cases special with
  | false => exact decode_map_idOf text
  | true =>
      have hskip : bytes (beginId :: (Text.Utf8.encode text).map idOf) =
          bytes ((Text.Utf8.encode text).map idOf) := by
        rw [bytes, if_pos (.inr rfl)]
      have hids : encode text true = beginId :: (Text.Utf8.encode text).map idOf := rfl
      rw [hids, decode, hskip]
      exact decode_map_idOf text

/-! ## texts that begin with another text -/

theorem encode_append (text rest : String) (special : Bool) :
    encode (text ++ rest) special =
      encode text special ++ (Text.Utf8.encode rest).map idOf := by
  rw [encode, encode, Text.Utf8.encode_append, List.map_append, List.append_assoc]

/-! ## reserved ids -/

/-- Whether an id stands for no byte, but for padding or for the beginning of a text. -/
def isReserved (id : UInt32) : Bool := id == padId || id == beginId

theorem isReserved_iff {id : UInt32} : isReserved id = true ↔ id = padId ∨ id = beginId := by
  simp [isReserved]

theorem lt_of_isReserved {id : UInt32} (h : isReserved id = true) : id < 258 := by
  rcases isReserved_iff.mp h with rfl | rfl <;> decide

theorem pad_notMem_encode (text : String) (special : Bool) : padId ∉ encode text special := by
  have hbytes : padId ∉ (Text.Utf8.encode text).map idOf := by
    simp only [List.mem_map, not_exists, not_and]
    exact fun b _ => idOf_ne_pad b
  cases special with
  | false => exact hbytes
  | true =>
      have hbegin : padId ≠ beginId := by decide
      exact List.not_mem_cons_of_ne_of_not_mem hbegin hbytes

/-- The beginning is marked in the first place only, and only if it is asked for. -/
theorem getElem?_encode_eq_begin_iff (text : String) (special : Bool) (i : Nat) :
    (encode text special)[i]? = some beginId ↔ i = 0 ∧ special = true := by
  have hbytes : ∀ i : Nat, ((Text.Utf8.encode text).map idOf)[i]? ≠ some beginId := by
    intro i hi
    obtain ⟨b, _, hb⟩ := List.mem_map.mp (List.mem_of_getElem? hi)
    exact idOf_ne_begin b hb
  cases special with
  | false => simpa [encode] using hbytes i
  | true =>
      cases i with
      | zero => simp [encode]
      | succ i => simpa [encode] using hbytes i

/-! ## reading any ids -/

/-- **What ids are read as**: the first that no byte has is an error, and if there is none, the
ids that are not reserved are bytes. -/
theorem bytes_eq (ids : List UInt32) :
    bytes ids = match ids.find? (258 ≤ ·) with
      | some id => .error ⟨s!"token id {id} out of byte range", []⟩
      | none => .ok ((ids.filter (!isReserved ·)).map fun id => (id - 2).toUInt8) := by
  induction ids with
  | nil => rfl
  | cons id ids ih =>
      rw [bytes, ih]
      by_cases hreserved : isReserved id = true
      · have hle : ¬ 258 ≤ id := UInt32.not_le.mpr (lt_of_isReserved hreserved)
        rw [if_pos (isReserved_iff.mp hreserved)]
        simp [hle, hreserved]
      · rw [if_neg fun h => hreserved (isReserved_iff.mpr h)]
        by_cases hlt : id < 258
        · have hle : ¬ 258 ≤ id := UInt32.not_le.mpr hlt
          rw [if_pos hlt, List.find?_cons_of_neg (by simpa using hle)]
          cases ids.find? (258 ≤ ·) with
          | none => simp [Except.map, hreserved]
          | some id' => rfl
        · have hle : 258 ≤ id := UInt32.not_lt.mp hlt
          rw [if_neg hlt, List.find?_cons_of_pos (by simpa using hle)]

theorem exists_decode_eq_error_iff (ids : List UInt32) :
    (∃ e, decode ids = .error e) ↔ ∃ id ∈ ids, 258 ≤ id := by
  have hfind : (∃ id ∈ ids, 258 ≤ id) ↔ (ids.find? (258 ≤ ·)).isSome = true := by
    simp [List.find?_isSome]
  rw [hfind, decode, bytes_eq]
  cases ids.find? (258 ≤ ·) <;> simp [Except.map]

/-- **Reserved ids are passed over**, also on the way to an error. -/
theorem decode_filter (ids : List UInt32) :
    decode (ids.filter (!isReserved ·)) = decode ids := by
  have hfind : (ids.filter (!isReserved ·)).find? (258 ≤ ·) = ids.find? (258 ≤ ·) := by
    rw [List.find?_filter]
    congr 1
    funext id
    by_cases hreserved : isReserved id = true
    · have hle : ¬ 258 ≤ id := UInt32.not_le.mpr (lt_of_isReserved hreserved)
      simp [hle]
    · simp [hreserved]
  rw [decode, decode, bytes_eq, bytes_eq, hfind, List.filter_filter]
  simp only [Bool.and_self]

theorem decode_insert {id : UInt32} (h : isReserved id = true) (front back : List UInt32) :
    decode (front ++ id :: back) = decode (front ++ back) := by
  rw [← decode_filter (front ++ id :: back), ← decode_filter (front ++ back), List.filter_append,
    List.filter_append, List.filter_cons_of_neg (by simp [h])]

/-! ## the encoder -/

/-- **The encoder of bytes loses nothing.**  A text comes back from its ids, none of which is that
of the padding, and of which at most the first marks the beginning.  The ids of a text are those of
its parts put together, whatever it is cut into.  Ids are refused exactly if one of them is too
great, and reserved ids make no difference wherever they stand. -/
theorem bytes_lossless :
    (∀ text special, ∃ ids, Encoder.bytes.encode text special = .ok ids ∧
      Encoder.bytes.decode ids = .ok text ∧ Encoder.bytes.pad ∉ ids ∧
        ∀ i, ids[i]? = some beginId ↔ i = 0 ∧ special = true) ∧
    (∀ x y special, ∃ front rest, Encoder.bytes.encode x special = .ok front ∧
      Encoder.bytes.encode y false = .ok rest ∧
        Encoder.bytes.encode (x ++ y) special = .ok (front ++ rest)) ∧
    (∀ ids, (∃ e, Encoder.bytes.decode ids = .error e) ↔ ∃ id ∈ ids, 258 ≤ id) ∧
    (∀ ids, Encoder.bytes.decode (ids.filter (!isReserved ·)) = Encoder.bytes.decode ids) ∧
    ∀ front back, Encoder.bytes.decode (front ++ Encoder.bytes.pad :: back) =
        Encoder.bytes.decode (front ++ back) ∧
      Encoder.bytes.decode (front ++ beginId :: back) = Encoder.bytes.decode (front ++ back) := by
  refine ⟨fun text special => ?_, fun x y special => ?_, exists_decode_eq_error_iff, decode_filter,
    fun front back => ⟨decode_insert rfl front back, decode_insert rfl front back⟩⟩
  · exact ⟨_, rfl, decode_encode text special, pad_notMem_encode text special,
      getElem?_encode_eq_begin_iff text special⟩
  · exact ⟨_, _, rfl, rfl, congrArg Except.ok (encode_append x y special)⟩

end InstallAssistant.Encoder.Bytes
