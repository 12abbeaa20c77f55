import InstallAssistant.Json.Reader
import InstallAssistant.Proofs.Json.Print
import InstallAssistant.Proofs.Text.Utf8
import Mathlib.Data.List.Nodup

/-!
# InstallAssistant.Proofs.Json.Reader

Readers of values that were written.  A list is read item by item
(`Reader.list_ofJson`), with one container less of room for each of them.  A record
whose object leaves fields out is read from the fields that are there
(`Reader.record_present`).  What a written value is read as depends only on its tree,
whether it is a text or bytes (`Reader.parse?_compact`, `Reader.parseBytes?_compact`).
-/

namespace InstallAssistant.Json

theorem finite_int (n : Int) : (int n).finite = true := by
  cases n <;> rfl

namespace Reader

variable {α β : Type}

theorem mapM_ofItems {r : Reader β} {f : α → Json} {g : α → β} {room : Nat} (xs : List α)
    (h : ∀ x ∈ xs, r room (.ofJson (f x)) = some (g x)) :
    (Tree.ofItems (xs.map f)).mapM (r room) = some (xs.map g) := by
  induction xs with
  | nil => rfl
  | cons x xs ih =>
      obtain ⟨hx, hxs⟩ := List.forall_mem_cons.mp h
      rw [List.map_cons, Tree.ofItems, List.mapM_cons, hx, ih hxs]
      rfl

/-- **A list is read item by item.** -/
theorem list_ofJson {r : Reader β} {f : α → Json} {g : α → β} {room : Nat} (xs : List α)
    (h : ∀ x ∈ xs, r room (.ofJson (f x)) = some (g x)) :
    list r (room + 1) (.ofJson (.array (xs.map f))) = some (xs.map g) := by
  rw [Tree.ofJson, list, if_neg (Nat.succ_ne_zero room)]
  exact mapM_ofItems xs h

/-- A text that may be missing is read back, from `null` if it is. -/
theorem optional_ofText? (text? : Option String) (room : Nat) :
    optional string room (.ofJson (.ofText? text?)) = some text? := by
  cases text? <;> rfl

theorem natural_ofJson {bound n : Nat} (hbound : bound ≤ Literal.wordBound) (h : n < bound)
    (room : Nat) : natural bound room (.ofJson (.nat n)) = some n := by
  have hvalue := Literal.value?_ofNumber_natural (Nat.lt_of_lt_of_le h hbound)
  rw [Json.nat, Tree.ofJson, natural, hvalue]
  exact if_pos h

theorem integer_ofJson {n : Int} (hlow : -Literal.signBound ≤ n) (hhigh : n < Literal.signBound)
    (room : Nat) : integer room (.ofJson (.int n)) = some n := by
  cases n with
  | ofNat n =>
      have h : n < Literal.signBound := Int.ofNat_lt.mp hhigh
      have hvalue := Literal.value?_ofNumber_natural (Nat.lt_trans h (by decide))
      rw [Json.int, Tree.ofJson, integer, hvalue]
      exact if_pos h
  | negSucc n =>
      have hvalue := Literal.value?_ofNumber_negative (Nat.succ_pos n) (by omega)
      rw [Json.int, Tree.ofJson, integer, hvalue]
      rfl

end Reader

/-! ## records that leave fields out -/

/-- The members of an object for those fields that are there. -/
def present (fields : List (String × Option Json)) : List (String × Json) :=
  fields.filterMap fun (name, v?) => v?.map fun v => (name, v)

section

variable (name : String) (v : Json) (fields : List (String × Option Json))

theorem present_cons_some : present ((name, some v) :: fields) = (name, v) :: present fields := rfl

theorem present_cons_none : present ((name, none) :: fields) = present fields := rfl

theorem present_cons_text (text? : Option String) :
    present ((name, text?.map .string) :: fields) = textMember name text? ++ present fields := by
  cases text? <;> rfl

theorem map_fst_present_sublist :
    ((present fields).map Prod.fst).Sublist (fields.map Prod.fst) := by
  induction fields with
  | nil => exact .slnil
  | cons field fields ih =>
      obtain ⟨name, v?⟩ := field
      cases v? with
      | none => exact ih.cons name
      | some v => exact ih.cons_cons name

end

theorem allInMembers_present {p : Number → Bool} {fields : List (String × Option Json)}
    (h : ∀ field ∈ fields, ∀ v ∈ field.2, v.allNumbers p = true) :
    allInMembers p (present fields) = true := by
  induction fields with
  | nil => rfl
  | cons field fields ih =>
      obtain ⟨name, v?⟩ := field
      obtain ⟨hfield, hfields⟩ := List.forall_mem_cons.mp h
      cases v? with
      | none => exact ih hfields
      | some v => rw [present_cons_some, allInMembers, hfield v rfl, ih hfields, Bool.and_true]

namespace Reader

variable {α : Type}

/-- How an object gives a field that it may leave out. -/
def Slot.ofOption : Option Json → Slot
  | some v => .given (.ofJson v)
  | none => .absent

/-- How fields are given by an object that has only those that are there. -/
def slots (fields : List (String × Option Json)) : List (String × Slot) :=
  fields.map fun (name, v?) => (name, .ofOption v?)

theorem mapM_fst_ofMembers (members : List (String × Json)) :
    (Tree.ofMembers members).mapM (·.1) = some (members.map Prod.fst) := by
  induction members with
  | nil => rfl
  | cons member members ih =>
      rw [Tree.ofMembers, List.mapM_cons, ih]
      rfl

/-- How the members of an object give a field. -/
def slotOf (members : List (Option String × Tree)) (name : String) : Slot :=
  match members.find? fun (k, _) => k == some name with
  | some (_, t) => .given t
  | none => .absent

theorem slotOf_cons (key : String) (t : Tree) (members : List (Option String × Tree))
    (name : String) :
    slotOf ((some key, t) :: members) name =
      if key = name then .given t else slotOf members name := by
  by_cases h : key = name <;> simp [slotOf, h]

theorem slotOf_ofMembers_of_notMem {members : List (String × Json)} {name : String}
    (h : name ∉ members.map Prod.fst) : slotOf (Tree.ofMembers members) name = .absent := by
  induction members with
  | nil => rfl
  | cons member members ih =>
      obtain ⟨hne, hrest⟩ := List.ne_and_not_mem_of_not_mem_cons h
      rw [Tree.ofMembers, slotOf_cons, if_neg hne.symm, ih hrest]

/-- Where every field has a name of its own, each is given as it is there. -/
theorem slotOf_present {fields : List (String × Option Json)}
    (hnodup : (fields.map Prod.fst).Nodup) {name : String} {v? : Option Json}
    (h : (name, v?) ∈ fields) : slotOf (Tree.ofMembers (present fields)) name = .ofOption v? := by
  induction fields with
  | nil => cases h
  | cons field fields ih =>
      obtain ⟨key, w?⟩ := field
      obtain ⟨hkey, hrest⟩ := List.nodup_cons.mp hnodup
      cases List.mem_cons.mp h with
      | inl hhead =>
          obtain ⟨rfl, rfl⟩ := Prod.mk.inj hhead
          cases v? with
          | none =>
              have habsent := fun hin => hkey ((map_fst_present_sublist fields).subset hin)
              rw [present_cons_none, slotOf_ofMembers_of_notMem habsent, Slot.ofOption]
          | some v => rw [present_cons_some, Tree.ofMembers, slotOf_cons, if_pos rfl, Slot.ofOption]
      | inr htail =>
          have hne : key ≠ name := by
            rintro rfl
            exact hkey (List.mem_map.mpr ⟨_, htail, rfl⟩)
          cases w? with
          | none => exact ih hrest htail
          | some w =>
              rw [present_cons_some, Tree.ofMembers, slotOf_cons, if_neg hne, ih hrest htail]

theorem memberSlots?_present {fields : List (String × Option Json)}
    (hnodup : (fields.map Prod.fst).Nodup) :
    memberSlots? (fields.map Prod.fst) false (Tree.ofMembers (present fields)) =
      some (slots fields) := by
  have honce : (fields.map Prod.fst).any
      (fun name => decide (1 < ((present fields).map Prod.fst).count name)) = false := by
    rw [List.any_eq_false]
    intro name _
    have hcount := List.nodup_iff_count_le_one.mp (hnodup.sublist (map_fst_present_sublist fields))
    simpa using hcount name
  have hslots : (fields.map Prod.fst).map
      (fun name => (name, slotOf (Tree.ofMembers (present fields)) name)) = slots fields := by
    rw [List.map_map, slots]
    exact List.map_congr_left fun field hfield => by
      rw [Function.comp_apply, slotOf_present hnodup hfield]
  rw [memberSlots?, mapM_fst_ofMembers]
  simp only [Option.bind_eq_bind, Option.bind_some, honce, Bool.false_and]
  exact congrArg some hslots

/-- **A record is read from the fields that are there.** -/
theorem record_present {fields : List (String × Option Json)}
    (hnodup : (fields.map Prod.fst).Nodup) (body : Fields → Option α) (room : Nat) :
    record (fields.map Prod.fst) false body (room + 1) (.ofJson (.object (present fields))) =
      body ⟨room, slots fields⟩ := by
  rw [Tree.ofJson, record, if_neg (Nat.succ_ne_zero room), memberSlots?_present hnodup]
  rfl

theorem Fields.optional_of_slot {f : Fields} {name : String} {text? : Option String}
    (h : f.slot name = .ofOption (text?.map .string)) : f.optional name string = some text? := by
  rw [Fields.optional, Fields.withDefault, h]
  cases text? <;> rfl

end Reader

/-! ## values as bytes -/

/-- Well-formed bytes are read as the text that they are. -/
theorem Tree.parseBytes?_encode (s : String) : parseBytes? (Text.Utf8.encode s) = parse? s := by
  rw [parseBytes?, Text.Utf8.encode, Text.Utf8.symbols_encodeChars, List.flatMap_map, parse?]
  exact congrArg (fun cs => (Token.ofChars? cs).bind ofTokens?) (List.flatMap_singleton' s.toList)

namespace Reader

variable {α : Type} (r : Reader α)

/-- **What is read of a value that was written** in one line is what is read of its tree. -/
theorem parse?_compact {v : Json} (h : v.finite = true) :
    r.parse? v.compact = r maxDepth (.ofJson v) := by
  rw [parse?, Tree.parse?_compact h, Option.bind_some]

/-- A value is read in the same way when its line was sent as bytes. -/
theorem parseBytes?_compact {v : Json} (h : v.finite = true) :
    r.parseBytes? (Text.Utf8.encode v.compact) = r maxDepth (.ofJson v) := by
  rw [parseBytes?, Tree.parseBytes?_encode, ← parse?_compact r h, parse?]

end Reader

end InstallAssistant.Json
