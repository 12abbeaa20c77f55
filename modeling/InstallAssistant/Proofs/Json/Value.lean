import InstallAssistant.Proofs.Json.Reader

/-!
# InstallAssistant.Proofs.Json.Value

Values that were written, read back as values.  An object comes back with its members
in the order of their keys, which is a reordering if no key is there twice
(`sortMembers_perm`), and a number as the number that its literal stands for; nothing
else changes (`reread`).  That much is read wherever there is room for the nesting,
and more room changes nothing (`Tree.value?_ofJson`).  A float is read back exactly if
it is finite (`Reader.float_ofFloat`).  A record that has all its fields is read in
whatever order they are (`Reader.record_perm`).
-/

namespace InstallAssistant.Json

/-! ## nesting -/

mutual

/-- How deep containers are nested in a value. -/
def depth : Json → Nat
  | .array items => itemsDepth items + 1
  | .object members => membersDepth members + 1
  | _ => 0

def itemsDepth : List Json → Nat
  | [] => 0
  | v :: vs => max (depth v) (itemsDepth vs)

def membersDepth : List (String × Json) → Nat
  | [] => 0
  | (_, v) :: ms => max (depth v) (membersDepth ms)

end

/-! ## what is read back -/

/-- Whether the literal that a number is written as has a value. -/
def Number.legible (n : Number) : Bool := (Literal.ofNumber n).value?.isSome

/-- The value of the literal that a number is written as. -/
def Number.reread (n : Number) : Number := (Literal.ofNumber n).value?.getD n

theorem Number.value?_ofNumber {n : Number} (h : n.legible = true) :
    (Literal.ofNumber n).value? = some n.reread := by
  obtain ⟨m, hm⟩ := Option.isSome_iff_exists.mp h
  rw [Number.reread, hm, Option.getD_some]

/-- Whether a number is one of a value: a whole number of 64 bits, or a finite float. -/
def Number.isValid : Number → Bool
  | .natural n => n < Literal.wordBound
  | .negative n => 0 < n && n ≤ Literal.signBound
  | .float x => (Number.float x).isFinite

theorem Number.isFinite_of_isValid {n : Number} (h : n.isValid = true) : n.isFinite = true := by
  cases n with
  | natural n => rfl
  | negative n => rfl
  | float x => exact h

/-- **Every number of a value** is written as a literal that has a value. -/
theorem Number.legible_of_isValid {n : Number} (h : n.isValid = true) : n.legible = true := by
  cases n with
  | natural n =>
      rw [legible, Literal.value?_ofNumber_natural (of_decide_eq_true h)]
      rfl
  | negative n =>
      simp only [isValid, Bool.and_eq_true, decide_eq_true_eq] at h
      rw [legible, Literal.value?_ofNumber_negative h.1 h.2]
      rfl
  | float x =>
      obtain ⟨l, hl, hprint, hsize⟩ := Number.exists_literal_float h
      rw [legible, Literal.ofNumber_eq_of_print hl hprint]
      exact Literal.isSome_value?_of_size? hsize

/-- Whether every number in a value is written as a literal that has a value. -/
abbrev legible (v : Json) : Bool := v.allNumbers Number.legible

section

variable {v : Json} (h : v.allNumbers Number.isValid = true)

include h

theorem finite_of_isValid : v.finite = true :=
  allNumbers_mono (fun _ => Number.isFinite_of_isValid) v h

theorem legible_of_isValid : v.legible = true :=
  allNumbers_mono (fun _ => Number.legible_of_isValid) v h

end

mutual

/-- What a value is read back as: members are in the order of their keys, the last of each key, and
numbers are what their literals stand for. -/
def reread : Json → Json
  | .number n => .number n.reread
  | .array items => .array (rereadItems items)
  | .object members => .ofMembers (rereadMembers members)
  | v => v

def rereadItems : List Json → List Json
  | [] => []
  | v :: vs => reread v :: rereadItems vs

def rereadMembers : List (String × Json) → List (String × Json)
  | [] => []
  | (k, v) :: ms => (k, reread v) :: rereadMembers ms

end

theorem rereadItems_eq_map (items : List Json) : rereadItems items = items.map reread := by
  induction items with
  | nil => rfl
  | cons v vs ih => rw [rereadItems, ih, List.map_cons]

namespace Tree

mutual

/-- **A value that was written is read back**, in whatever room its nesting leaves. -/
theorem value?_ofJson : ∀ (v : Json) {room : Nat}, v.legible = true → v.depth ≤ room →
    value? room (ofJson v) = some v.reread
  | .null, _, _, _ => rfl
  | .bool _, _, _, _ => rfl
  | .number n, _, h, _ => by rw [ofJson, value?, n.value?_ofNumber h, Option.map_some, reread]
  | .string _, _, _, _ => rfl
  | .array items, room, h, hdepth => by
      obtain ⟨room, rfl⟩ := Nat.exists_eq_add_of_le' (Nat.le_of_add_left_le hdepth)
      rw [ofJson, value?, if_neg (Nat.succ_ne_zero room), Nat.add_sub_cancel,
        values?_ofItems items h (Nat.le_of_succ_le_succ hdepth), Option.map_some, reread]
  | .object members, room, h, hdepth => by
      obtain ⟨room, rfl⟩ := Nat.exists_eq_add_of_le' (Nat.le_of_add_left_le hdepth)
      rw [ofJson, value?, if_neg (Nat.succ_ne_zero room), Nat.add_sub_cancel,
        memberValues?_ofMembers members h (Nat.le_of_succ_le_succ hdepth), Option.map_some, reread]

theorem values?_ofItems : ∀ (items : List Json) {room : Nat}, allInItems Number.legible items = true →
    itemsDepth items ≤ room → values? room (ofItems items) = some (rereadItems items)
  | [], _, _, _ => rfl
  | v :: vs, room, h, hdepth => by
      simp only [allInItems, Bool.and_eq_true] at h
      obtain ⟨hv, hvs⟩ := Nat.max_le.mp hdepth
      rw [ofItems, values?, value?_ofJson v h.1 hv, values?_ofItems vs h.2 hvs]
      rfl

theorem memberValues?_ofMembers : ∀ (members : List (String × Json)) {room : Nat},
    allInMembers Number.legible members = true → membersDepth members ≤ room →
      memberValues? room (ofMembers members) = some (rereadMembers members)
  | [], _, _, _ => rfl
  | (k, v) :: ms, room, h, hdepth => by
      simp only [allInMembers, Bool.and_eq_true] at h
      obtain ⟨hv, hms⟩ := Nat.max_le.mp hdepth
      rw [ofMembers, memberValues?, value?_ofJson v h.1 hv, memberValues?_ofMembers ms h.2 hms]
      rfl

end

end Tree

/-! ## leaves -/

theorem depth_ofText? (text? : Option String) : (ofText? text?).depth = 0 := by
  cases text? <;> rfl

theorem depth_ofFloat (x : Float) : (ofFloat x).depth = 0 := by
  rw [ofFloat_eq]
  split <;> rfl

theorem depth_strings (xs : List String) : (strings xs).depth = 1 := by
  have hitems : itemsDepth (xs.map .string) = 0 := by
    induction xs with
    | nil => rfl
    | cons x xs ih =>
        rw [List.map_cons, itemsDepth, ih]
        rfl
  rw [strings, depth, hitems]

theorem allNumbers_ofText? (p : Number → Bool) (text? : Option String) :
    (ofText? text?).allNumbers p = true := by
  cases text? <;> rfl

theorem allNumbers_strings (p : Number → Bool) (xs : List String) :
    (strings xs).allNumbers p = true := allInItems_map xs fun _ _ => rfl

theorem reread_ofText? (text? : Option String) : (ofText? text?).reread = ofText? text? := by
  cases text? <;> rfl

theorem reread_strings (xs : List String) : (strings xs).reread = strings xs := by
  rw [strings, reread, rereadItems_eq_map, List.map_map]
  rfl

theorem isValid_ofFloat (x : Float) : (ofFloat x).allNumbers Number.isValid = true := by
  rw [ofFloat_eq]
  split
  · next h => exact (Number.isFinite_float x).trans h
  · rfl

/-! ### floats -/

/-- A number as a float. -/
def Number.toFloat : Number → Float
  | .natural n => .ofNat n
  | .negative n => -.ofNat n
  | .float x => x

/-- Any number, as a float. -/
def Reader.float : Reader Float
  | _, .number l => l.value?.map Number.toFloat
  | _, _ => none

/-- What a finite float is read back as. -/
def rereadFloat (x : Float) : Float := (Number.float x).reread.toFloat

/-- **A float is read back exactly if it is finite.** -/
theorem Reader.float_ofFloat (x : Float) (room : Nat) :
    float room (.ofJson (.ofFloat x)) = if x.isFinite then some (rereadFloat x) else none := by
  rw [ofFloat_eq]
  split
  · next h =>
    have hlegible : (Number.float x).legible = true :=
      Number.legible_of_isValid ((Number.isFinite_float x).trans h)
    rw [Tree.ofJson, float, Number.value?_ofNumber hlegible]
    rfl
  · rfl

/-! ## members in order -/

theorem setMember_perm {key : String} {members : List (String × Json)}
    (h : key ∉ members.map Prod.fst) (v : Json) :
    (setMember key v members).Perm ((key, v) :: members) := by
  induction members with
  | nil => exact .refl _
  | cons member members ih =>
      obtain ⟨k, w⟩ := member
      obtain ⟨hne, hrest⟩ := List.ne_and_not_mem_of_not_mem_cons h
      rw [setMember]
      split
      · exact .refl _
      · exact ((ih hrest).cons (k, w)).trans (.swap _ _ _)

/-- **Sorting is a reordering** if no key is there twice. -/
theorem sortMembers_perm {members : List (String × Json)} (h : (members.map Prod.fst).Nodup) :
    (sortMembers members).Perm members := by
  -- the members that were set before stand in front
  suffices ∀ sorted : List (String × Json), ((sorted ++ members).map Prod.fst).Nodup →
      (members.foldl (fun sorted member => setMember member.1 member.2 sorted) sorted).Perm
        (sorted ++ members) from this [] h
  induction members with
  | nil => exact fun sorted _ => by rw [List.foldl_nil, List.append_nil]
  | cons member members ih =>
      obtain ⟨key, v⟩ := member
      intro sorted hnodup
      have hmiddle : (sorted ++ (key, v) :: members).Perm ((key, v) :: (sorted ++ members)) :=
        List.perm_middle
      have hall := (hmiddle.map Prod.fst).nodup hnodup
      have hkey : key ∉ sorted.map Prod.fst := by
        intro hin
        exact (List.nodup_cons.mp hall).1 (by rw [List.map_append]; exact List.mem_append_left _ hin)
      have hset := (setMember_perm hkey v).append_right members
      have hrest := (hset.map Prod.fst).nodup_iff.mpr hall
      exact ((ih (List.nodup_cons.mp h).2 _ hrest).trans hset).trans hmiddle.symm

namespace Reader

variable {α : Type}

theorem slotOf_of_mem {members : List (String × Json)} (hnodup : (members.map Prod.fst).Nodup)
    {name : String} {v : Json} (h : (name, v) ∈ members) :
    slotOf (Tree.ofMembers members) name = .given (.ofJson v) := by
  induction members with
  | nil => cases h
  | cons member members ih =>
      obtain ⟨key, w⟩ := member
      obtain ⟨hkey, hrest⟩ := List.nodup_cons.mp hnodup
      rw [Tree.ofMembers, slotOf_cons]
      cases List.mem_cons.mp h with
      | inl hhead =>
          obtain ⟨rfl, rfl⟩ := Prod.mk.inj hhead
          exact if_pos rfl
      | inr htail =>
          have hne : key ≠ name := by
            rintro rfl
            exact hkey (List.mem_map.mpr ⟨_, htail, rfl⟩)
          rw [if_neg hne, ih hrest htail]

/-- Where every field has a name of its own, each is given as it is there. -/
theorem slot_of_nodup {fields : List (String × Json)} (hnodup : (fields.map Prod.fst).Nodup)
    (room : Nat) : ∀ field ∈ fields,
      Fields.slot ⟨room, fields.map fun (name, v) => (name, .given (.ofJson v))⟩ field.1 =
        .given (.ofJson field.2) := by
  intro field hfield
  induction fields with
  | nil => cases hfield
  | cons first fields ih =>
      obtain ⟨hfirst, hrest⟩ := List.nodup_cons.mp hnodup
      cases List.mem_cons.mp hfield with
      | inl hhead =>
          subst hhead
          simp [Fields.slot]
      | inr htail =>
          have hne : first.1 ≠ field.1 := by
            intro heq
            exact hfirst (heq ▸ List.mem_map_of_mem htail)
          have hskip := ih hrest htail
          simpa [Fields.slot, hne] using hskip

/-- **A record with all its fields** is read from them, in whatever order they are. -/
theorem record_perm {members fields : List (String × Json)} (hperm : members.Perm fields)
    (hnodup : (fields.map Prod.fst).Nodup) (strict : Bool) (body : Fields → Option α)
    (room : Nat) :
    record (fields.map Prod.fst) strict body (room + 1) (.ofJson (.object members)) =
      body ⟨room, fields.map fun (name, v) => (name, .given (.ofJson v))⟩ := by
  have hkeys := hperm.map Prod.fst
  have honce : (fields.map Prod.fst).any
      (fun name => decide (1 < (members.map Prod.fst).count name)) = false := by
    rw [List.any_eq_false]
    intro name _
    have hcount := List.nodup_iff_count_le_one.mp (hkeys.nodup_iff.mpr hnodup) name
    simpa using hcount
  have hknown : ((members.map Prod.fst).any
      fun key => !(fields.map Prod.fst).contains key) = false := by
    rw [List.any_eq_false]
    intro key hkey
    simpa using hkeys.subset hkey
  have hslots : (fields.map Prod.fst).map
      (fun name => (name, slotOf (Tree.ofMembers members) name)) =
        fields.map fun (name, v) => (name, .given (.ofJson v)) := by
    rw [List.map_map]
    exact List.map_congr_left fun field hfield => by
      rw [Function.comp_apply, slotOf_of_mem (hkeys.nodup_iff.mpr hnodup) (hperm.mem_iff.mpr hfield)]
  rw [Tree.ofJson, record, if_neg (Nat.succ_ne_zero room), memberSlots?, mapM_fst_ofMembers]
  simp only [Option.bind_eq_bind, Option.bind_some, honce, hknown, Bool.and_false]
  exact congrArg (fun slots => body ⟨room, slots⟩) hslots

end Reader

end InstallAssistant.Json
