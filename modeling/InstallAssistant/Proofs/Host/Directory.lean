import InstallAssistant.Host.Directory

/-!
# InstallAssistant.Proofs.Host.Directory

What a change of a directory does to the files in it.

1. A file that is written is read back, and other files stay (`read?_of_write?`,
   `read?_of_write?_join`), also where many are written into one folder
   (`read?_of_writeAll?`, `find?_of_writeAll?`).
2. Folders that are made displace nothing (`Directory.Grows`).
3. The files of one folder are kept apart by their names (`place?_join`), however
   the way to the folder is written (`place?_front`).
-/

namespace InstallAssistant

namespace Text

theorem splitOn_eq (sep : Char) (s : List Char) : splitOn sep s = s.splitOn sep := by
  induction s with
  | nil => rfl
  | cons c s ih =>
      rw [splitOn, ih, List.splitOn_cons_eq_if_modifyHead]
      by_cases h : c = sep
      · simp [h]
      · simp only [h, if_false, beq_iff_eq]
        cases hs : s.splitOn sep with
        | nil => exact absurd hs (List.splitOn_ne_nil sep s)
        | cons field fields => rfl

end Text

namespace Host

/-! ## names and paths -/

/-- Names that lead from a folder to something in it. -/
structure Path.IsName (name : String) : Prop where
  noSlash : '/' ∉ name.toList
  goes : isIdle name = false
  notUp : name ≠ ".."

namespace Path

instance (name : String) : Decidable (IsName name) :=
  decidable_of_iff ('/' ∉ name.toList ∧ isIdle name = false ∧ name ≠ "..")
    ⟨fun ⟨hslash, hgoes, hup⟩ => ⟨hslash, hgoes, hup⟩, fun h => ⟨h.noSlash, h.goes, h.notUp⟩⟩

theorem fields_append_slash (folder name : String) :
    fields (folder ++ "/" ++ name) = fields folder ++ fields name := by
  have hsplit : (folder ++ "/" ++ name).toList = folder.toList ++ '/' :: name.toList := by
    simp [String.toList_append]
  simp only [fields, hsplit, Text.splitOn_eq, List.splitOn_append_cons_self, List.map_append]

theorem fields_of_isName {name : String} (h : IsName name) : fields name = [name] := by
  simp [fields, Text.splitOn_eq, List.splitOn_eq_singleton h.noSlash]

theorem isAbsolute_of_isName {name : String} (h : IsName name) : isAbsolute name = false := by
  cases hs : name.toList with
  | nil => simp [isAbsolute, hs]
  | cons c s =>
      have hc : c ≠ '/' := by
        rintro rfl
        exact h.noSlash (hs ▸ List.mem_cons_self)
      simp [isAbsolute, hs, hc]

theorem ne_empty_of_isName {name : String} (h : IsName name) : name ≠ "" := by
  rintro rfl
  exact absurd h.goes (by decide)

/-- The fields that lead to a folder, before the name of something in it. -/
def stem (folder : String) : List String :=
  if folder.isEmpty || folder.toList.getLast? == some '/' then (fields folder).dropLast
  else fields folder

theorem exists_eq_append_slash {folder : String} (h : folder.toList.getLast? = some '/') :
    ∃ front, folder = front ++ "/" := by
  obtain ⟨front, hfront⟩ := List.getLast?_eq_some_iff.mp h
  refine ⟨String.ofList front, String.toList_inj.mp ?_⟩
  rw [String.toList_append, String.toList_ofList, hfront]
  rfl

theorem fields_slash (front : String) : fields (front ++ "/") = fields front ++ [""] := by
  have hfields := fields_append_slash front ""
  rw [String.append_empty] at hfields
  exact hfields

theorem stem_slash (front : String) : stem (front ++ "/") = fields front := by
  rw [stem, if_pos (by simp), fields_slash, List.dropLast_concat]

theorem stem_of_no_slash {folder : String} (hempty : ¬ folder.isEmpty = true)
    (hslash : folder.toList.getLast? ≠ some '/') : stem folder = fields folder := by
  rw [stem, if_neg (by simp [hslash, hempty])]

theorem fields_eq_stem (folder : String) :
    fields folder = stem folder ∨ fields folder = stem folder ++ [""] := by
  by_cases hempty : folder.isEmpty = true
  · obtain rfl : folder = "" := by simpa using hempty
    exact .inr rfl
  by_cases hslash : folder.toList.getLast? = some '/'
  · obtain ⟨front, rfl⟩ := exists_eq_append_slash hslash
    exact .inr (by rw [fields_slash, stem_slash])
  · exact .inl (stem_of_no_slash hempty hslash).symm

theorem fields_join (folder : String) {name : String} (h : IsName name) :
    fields (join folder name) = stem folder ++ [name] := by
  rw [join, isAbsolute_of_isName h, Bool.false_or]
  by_cases hempty : folder.isEmpty = true
  · obtain rfl : folder = "" := by simpa using hempty
    exact fields_of_isName h
  rw [if_neg hempty]
  by_cases hslash : folder.toList.getLast? = some '/'
  · obtain ⟨front, rfl⟩ := exists_eq_append_slash hslash
    rw [if_pos (by simp), fields_append_slash, fields_of_isName h, stem_slash]
  · rw [if_neg (by simpa using hslash), fields_append_slash, fields_of_isName h,
      stem_of_no_slash hempty hslash]

theorem exists_join_eq (folder name : String) : ∃ front, join folder name = front ++ name := by
  rw [join]
  split
  · exact ⟨"", by simp⟩
  split
  · exact ⟨_, rfl⟩
  · exact ⟨_, rfl⟩

theorem isEmpty_join (folder : String) {name : String} (h : IsName name) :
    (join folder name).isEmpty = false := by
  obtain ⟨front, hjoin⟩ := exists_join_eq folder name
  rw [hjoin]
  simp [ne_empty_of_isName h]

theorem stem_join (folder : String) {name : String} (h : IsName name) :
    stem (join folder name) = stem folder ++ [name] := by
  obtain ⟨front, hjoin⟩ := exists_join_eq folder name
  have hempty := isEmpty_join folder h
  have hslash : (join folder name).toList.getLast? ≠ some '/' := by
    have hname : name.toList ≠ [] := by simpa using ne_empty_of_isName h
    rw [hjoin, String.toList_append, List.getLast?_append, List.getLast?_eq_some_getLast hname,
      Option.some_or]
    exact fun hlast => h.noSlash (Option.some.inj hlast ▸ List.getLast_mem hname)
  rw [stem_of_no_slash (by simp [hempty]) hslash, fields_join folder h]

end Path

namespace Directory

open Host.Path

variable {d d' : Directory} {place q fs : List String} {e : Entry}
  {folder name field : String}

/-! ## what is at a place -/

theorem find?_of_ne_nil (d : Directory) (hplace : place ≠ []) :
    d.find? place = (d.entries.find? (·.1 == place)).map (·.2) := by
  rw [find?, if_neg (by simpa using hplace)]

theorem set_eq (d : Directory) (place : List String) (e : Entry) :
    d.set place e =
      if d.entries.any (·.1 == place) then
        ⟨d.entries.map fun entry => (entry.1, if entry.1 == place then e else entry.2)⟩
      else ⟨d.entries ++ [(place, e)]⟩ := rfl

theorem find?_set_self (hplace : place ≠ []) (e : Entry) :
    (d.set place e).find? place = some e := by
  rw [find?_of_ne_nil _ hplace, set_eq]
  split
  · next hany =>
    obtain ⟨entry, hfind⟩ := Option.isSome_iff_exists.mp (List.find?_isSome.mpr
      (List.any_eq_true.mp hany))
    have hentry : entry.1 = place := by simpa using List.find?_some hfind
    simp only [List.find?_map, Function.comp_def, hfind]
    simp [hentry]
  · next hany =>
    have hnone : d.entries.find? (·.1 == place) = none :=
      List.find?_eq_none.mpr fun entry hmem hentry =>
        hany (List.any_eq_true.mpr ⟨entry, hmem, hentry⟩)
    rw [List.find?_append, hnone]
    simp

theorem find?_set_ne (hne : q ≠ place) (e : Entry) : (d.set place e).find? q = d.find? q := by
  by_cases hnil : q = []
  · rw [hnil]
    rfl
  rw [find?_of_ne_nil _ hnil, find?_of_ne_nil _ hnil, set_eq]
  split
  · simp only [List.find?_map, Function.comp_def]
    cases hfind : d.entries.find? (·.1 == q) with
    | none => rfl
    | some entry =>
        have hentry : entry.1 = q := by simpa using List.find?_some hfind
        simp [hentry, hne]
  · rw [List.find?_append]
    simp [Ne.symm hne]

theorem isFolder_root (d : Directory) : d.isFolder [] = true := rfl

theorem ne_nil_of_isFolder (h : d.isFolder place = false) : place ≠ [] := by
  rintro rfl
  cases h

/-! ## the way to a place -/

theorem next_name (place : List String) (h : IsName name) : next place name = place ++ [name] := by
  simp [next, h.goes, h.notUp]

/-- Folders that stay folders keep every way open. -/
theorem walk_of_le (hle : ∀ q, d.isFolder q = true → d'.isFolder q = true) {fs : List String}
    (h : d.walk place fs = some q) : d'.walk place fs = some q := by
  induction fs generalizing place with
  | nil => exact h
  | cons field fs ih =>
      rw [walk] at h ⊢
      split at h
      · next hfolder =>
        rw [if_pos (hle _ hfolder)]
        exact ih h
      · cases h

theorem walk_congr (hsame : d.isFolder = d'.isFolder) (place fs : List String) :
    d.walk place fs = d'.walk place fs := by
  induction fs generalizing place with
  | nil => rfl
  | cons field fs ih => simp only [walk, hsame, ih]

theorem place?_congr (hsame : d.isFolder = d'.isFolder) (path : String) :
    d.place? path = d'.place? path := by
  rw [place?, place?, walk_congr hsame]

/-- A way through some fields is the way through all but the last, and a step. -/
theorem walk_append (place fs gs : List String) :
    d.walk place (fs ++ gs) = (d.walk place fs).bind fun q => d.walk q gs := by
  induction fs generalizing place with
  | nil => rfl
  | cons field fs ih =>
      simp only [List.cons_append, walk, ih]
      split <;> rfl

theorem walk_name (h : IsName name) :
    d.walk place [name] = if d.isFolder place then some (place ++ [name]) else none := by
  rw [walk, next_name place h, walk]

/-- **The root is the present folder**: a path leads to the same place from both, and nothing is
above them. -/
theorem place?_front (d : Directory) {front path : String} (hfront : front ∈ ["", ".", ".."])
    (hpath : path.isEmpty = false) : d.place? (front ++ "/" ++ path) = d.place? path := by
  have hfields : fields front = [front] := by
    revert front
    decide
  have hroot : d.walk [] [front] = some [] := by
    simp only [List.mem_cons, List.not_mem_nil, or_false] at hfront
    rcases hfront with rfl | rfl | rfl <;> rfl
  have hwhole : (front ++ "/" ++ path).isEmpty = false := by simp
  rw [place?, place?, hwhole, hpath, fields_append_slash, hfields, walk_append, hroot]
  rfl

/-! ## files of one folder -/

/-- The place of a folder, where what is in it has its name behind the place. -/
def home? (d : Directory) (folder : String) : Option (List String) :=
  (d.walk [] (stem folder)).filter d.isFolder

theorem walk_append_name (place fs : List String) (h : IsName name) :
    d.walk place (fs ++ [name]) = ((d.walk place fs).filter d.isFolder).map (· ++ [name]) := by
  rw [walk_append]
  cases d.walk place fs with
  | none => rfl
  | some q =>
      rw [Option.bind_some, walk_name h]
      cases hfolder : d.isFolder q <;> simp [Option.filter, hfolder]

/-- **The files of one folder** have their names in the place of the folder. -/
theorem place?_join (d : Directory) (folder : String) (h : IsName name) :
    d.place? (join folder name) = (d.home? folder).map (· ++ [name]) := by
  rw [place?, isEmpty_join folder h, if_neg Bool.false_ne_true, fields_join folder h,
    walk_append_name _ _ h, home?]

theorem home?_join (d : Directory) (folder : String) (h : IsName name) :
    d.home? (join folder name) = ((d.home? folder).map (· ++ [name])).filter d.isFolder := by
  rw [home?, stem_join folder h, walk_append_name _ _ h, home?]

/-- Different names in one folder are different places. -/
theorem place?_join_ne {folder a b : String} (ha : IsName a) (hb : IsName b) (hne : a ≠ b)
    (hplace : d.place? (join folder a) = some place) :
    d.place? (join folder b) ≠ some place := by
  rw [place?_join d folder ha, Option.map_eq_some_iff] at hplace
  obtain ⟨home, hhome, rfl⟩ := hplace
  rw [place?_join d folder hb, hhome]
  simpa using Ne.symm hne

/-! ## writing -/

theorem write?_eq_some_iff {path : String} {bytes : List UInt8} :
    d.write? path bytes = some d' ↔
      ∃ place, d.place? path = some place ∧ d.isFolder place = false ∧
        d' = d.set place (.file bytes) := by
  rw [write?]
  cases d.place? path with
  | none => simp
  | some place =>
      cases hfolder : d.isFolder place with
      | false => simp [hfolder, @eq_comm _ d']
      | true => simp [hfolder]

theorem isFolder_set_file (hplace : d.isFolder place = false) (bytes : List UInt8) :
    (d.set place (.file bytes)).isFolder = d.isFolder := by
  funext q
  by_cases hq : q = place
  · rw [hq, hplace, isFolder, find?_set_self (ne_nil_of_isFolder hplace)]
    rfl
  · rw [isFolder, isFolder, find?_set_ne hq]

theorem place?_of_write? {path : String} {bytes : List UInt8} (h : d.write? path bytes = some d')
    (other : String) : d'.place? other = d.place? other := by
  obtain ⟨place, _, hfolder, rfl⟩ := write?_eq_some_iff.mp h
  exact place?_congr (isFolder_set_file hfolder bytes) other

/-- **A file that is written is read back.** -/
theorem read?_of_write? {path : String} {bytes : List UInt8} (h : d.write? path bytes = some d') :
    d'.read? path = some bytes := by
  rw [read?, entry?, place?_of_write? h]
  obtain ⟨place, hplace, hfolder, rfl⟩ := write?_eq_some_iff.mp h
  rw [hplace, Option.bind_some, find?_set_self (ne_nil_of_isFolder hfolder)]

theorem find?_of_write? {path : String} {bytes : List UInt8} (h : d.write? path bytes = some d')
    (hne : d.place? path ≠ some q) : d'.find? q = d.find? q := by
  obtain ⟨place, hplace, _, rfl⟩ := write?_eq_some_iff.mp h
  refine find?_set_ne (fun heq => hne ?_) _
  rw [hplace, heq]

/-- Writing a file leaves all others as they are. -/
theorem read?_of_write?_ne {path other : String} {bytes : List UInt8}
    (h : d.write? path bytes = some d') (hne : d.place? other ≠ d.place? path) :
    d'.read? other = d.read? other := by
  rw [read?, read?, entry?, entry?, place?_of_write? h]
  cases hother : d.place? other with
  | none => rfl
  | some q =>
      rw [Option.bind_some, Option.bind_some,
        find?_of_write? h fun heq => hne (hother.trans heq.symm)]

theorem read?_of_write?_join {folder a b : String} {bytes : List UInt8}
    (h : d.write? (join folder a) bytes = some d') (ha : IsName a) (hb : IsName b) (hne : a ≠ b) :
    d'.read? (join folder b) = d.read? (join folder b) := by
  obtain ⟨place, hplace, _⟩ := write?_eq_some_iff.mp h
  exact read?_of_write?_ne h (hplace ▸ place?_join_ne ha hb hne hplace)

/-- Whether a file can be written at a path. -/
def Writable (d : Directory) (path : String) : Prop :=
  ∃ place, d.place? path = some place ∧ d.isFolder place = false

theorem exists_write? {path : String} (h : d.Writable path) (bytes : List UInt8) :
    ∃ d', d.write? path bytes = some d' := by
  obtain ⟨place, hplace, hfolder⟩ := h
  exact ⟨_, write?_eq_some_iff.mpr ⟨place, hplace, hfolder, rfl⟩⟩

theorem Writable.write? {path other : String} {bytes : List UInt8} (h : d.Writable other)
    (hwrite : d.write? path bytes = some d') : d'.Writable other := by
  have hplace := place?_of_write? hwrite other
  obtain ⟨place, _, hfolder, rfl⟩ := write?_eq_some_iff.mp hwrite
  obtain ⟨q, hq, hqfolder⟩ := h
  exact ⟨q, hplace.trans hq, isFolder_set_file hfolder bytes ▸ hqfolder⟩

/-! ## writing the files of a folder -/

/-- Writes files into a folder, one after another. -/
def writeAll? (d : Directory) (folder : String) : List (String × List UInt8) → Option Directory
  | [] => some d
  | (name, bytes) :: files => (d.write? (join folder name) bytes).bind (·.writeAll? folder files)

theorem writeAll?_cons_eq_some_iff {bytes : List UInt8} {files : List (String × List UInt8)} :
    d.writeAll? folder ((name, bytes) :: files) = some d' ↔
      ∃ d₁, d.write? (join folder name) bytes = some d₁ ∧ d₁.writeAll? folder files = some d' :=
  Option.bind_eq_some_iff

section

variable {files : List (String × List UInt8)}

/-- Files of other names are read as before. -/
theorem read?_of_writeAll?_ne (h : d.writeAll? folder files = some d')
    (hnames : ∀ a ∈ files.map Prod.fst, IsName a) (hname : IsName name)
    (hnew : name ∉ files.map Prod.fst) :
    d'.read? (join folder name) = d.read? (join folder name) := by
  induction files generalizing d with
  | nil =>
      cases h
      rfl
  | cons file files ih =>
      obtain ⟨d₁, hfirst, hrest⟩ := writeAll?_cons_eq_some_iff.mp h
      obtain ⟨ha, hnames⟩ := List.forall_mem_cons.mp hnames
      rw [List.map_cons, List.mem_cons, not_or] at hnew
      rw [ih hrest hnames hnew.2, read?_of_write?_join hfirst ha hname (Ne.symm hnew.1)]

/-- **Files of different names are all read back**, whichever is written last. -/
theorem read?_of_writeAll? (h : d.writeAll? folder files = some d')
    (hnames : ∀ a ∈ files.map Prod.fst, IsName a) (hdistinct : (files.map Prod.fst).Nodup) :
    ∀ file ∈ files, d'.read? (join folder file.1) = some file.2 := by
  induction files generalizing d with
  | nil => nofun
  | cons file files ih =>
      obtain ⟨d₁, hfirst, hrest⟩ := writeAll?_cons_eq_some_iff.mp h
      obtain ⟨hname, hnames⟩ := List.forall_mem_cons.mp hnames
      obtain ⟨hnew, hdistinct⟩ := List.nodup_cons.mp hdistinct
      refine List.forall_mem_cons.mpr ⟨?_, ih hrest hnames hdistinct⟩
      rw [read?_of_writeAll?_ne hrest hnames hname hnew, read?_of_write? hfirst]

/-- **Files can all be written** if each of them can. -/
theorem exists_writeAll? (h : ∀ a ∈ files.map Prod.fst, d.Writable (join folder a)) :
    ∃ d', d.writeAll? folder files = some d' := by
  induction files generalizing d with
  | nil => exact ⟨d, rfl⟩
  | cons file files ih =>
      obtain ⟨hfirst, hrest⟩ := List.forall_mem_cons.mp h
      obtain ⟨d₁, hwrite⟩ := exists_write? hfirst file.2
      obtain ⟨d', hall⟩ := ih fun a ha => (hrest a ha).write? hwrite
      exact ⟨d', writeAll?_cons_eq_some_iff.mpr ⟨d₁, hwrite, hall⟩⟩

/-- What is at no place of the files stays as it is. -/
theorem find?_of_writeAll? (h : d.writeAll? folder files = some d')
    (hq : ∀ a ∈ files.map Prod.fst, d.place? (join folder a) ≠ some q) :
    d'.find? q = d.find? q := by
  induction files generalizing d with
  | nil =>
      cases h
      rfl
  | cons file files ih =>
      obtain ⟨d₁, hfirst, hrest⟩ := writeAll?_cons_eq_some_iff.mp h
      obtain ⟨hplace, hq⟩ := List.forall_mem_cons.mp hq
      rw [ih hrest fun a ha => place?_of_write? hfirst _ ▸ hq a ha, find?_of_write? hfirst hplace]

end

/-! ## making folders -/

/-- Whatever is in a directory stays as it is. -/
def Grows (d d' : Directory) : Prop := ∀ place e, d.find? place = some e → d'.find? place = some e

theorem Grows.refl (d : Directory) : Grows d d := fun _ _ h => h

theorem Grows.trans {d d' d'' : Directory} (h : Grows d d') (h' : Grows d' d'') : Grows d d'' :=
  fun place e he => h' place e (h place e he)

theorem Grows.isFolder (h : Grows d d') (hplace : d.isFolder place = true) :
    d'.isFolder place = true := by
  simp only [Directory.isFolder, beq_iff_eq] at hplace ⊢
  exact h _ _ hplace

theorem Grows.place? (h : Grows d d') {path : String} (hplace : d.place? path = some place) :
    d'.place? path = some place := by
  rw [Directory.place?] at hplace ⊢
  split at hplace
  · cases hplace
  · next hpath =>
    rw [if_neg hpath]
    exact walk_of_le (fun _ => h.isFolder) hplace

theorem Grows.read? (h : Grows d d') {path : String} {bytes : List UInt8}
    (hread : d.read? path = some bytes) : d'.read? path = some bytes := by
  rw [Directory.read?, entry?] at hread ⊢
  cases hplace : d.place? path with
  | none => simp [hplace] at hread
  | some place =>
      rw [hplace, Option.bind_some] at hread
      rw [h.place? hplace, Option.bind_some]
      cases hfind : d.find? place with
      | none => simp [hfind] at hread
      | some e =>
          rw [h _ _ hfind]
          rwa [hfind] at hread

theorem grows_set (hplace : d.find? place = none) (e : Entry) : Grows d (d.set place e) := by
  intro q old hq
  have hne : q ≠ place := by
    rintro rfl
    rw [hplace] at hq
    cases hq
  rw [find?_set_ne hne, hq]

/-- One step of making folders: the directory after it, and where it leads. -/
def enter (d : Directory) (place : List String) (field : String) :
    Option (Directory × List String) :=
  match d.find? (next place field) with
  | some .folder => some (d, next place field)
  | some (.file _) => none
  | none => some (d.set (next place field) .folder, next place field)

/-- The steps of making folders. -/
def enterAll (d : Directory) (place fs : List String) : Option (Directory × List String) :=
  fs.foldlM (fun at_ field => enter at_.1 at_.2 field) (d, place)

theorem enterAll_cons (d : Directory) (place : List String) (field : String) (fs : List String) :
    d.enterAll place (field :: fs) = (d.enter place field).bind fun x => x.1.enterAll x.2 fs := by
  rw [enterAll, List.foldlM_cons]
  rfl

theorem enterAll_append (d : Directory) (place fs gs : List String) :
    d.enterAll place (fs ++ gs) = (d.enterAll place fs).bind fun x => x.1.enterAll x.2 gs := by
  rw [enterAll, List.foldlM_append]
  rfl

theorem makeFrom_eq (d : Directory) (place fs : List String) :
    d.makeFrom place fs = (d.enterAll place fs).map (·.1) := by
  induction fs generalizing d place with
  | nil => rfl
  | cons field fs ih =>
      rw [makeFrom, enterAll_cons, enter]
      cases d.find? (next place field) with
      | none => exact ih _ _
      | some e =>
          cases e with
          | file bytes => rfl
          | folder => exact ih d _

theorem grows_of_enter (h : d.enter place field = some (d', q)) : Grows d d' := by
  rw [enter] at h
  split at h
  · cases h; exact .refl d
  · cases h
  · next hnone => cases h; exact grows_set hnone .folder

/-- **Folders that are made displace nothing.** -/
theorem grows_of_enterAll (h : d.enterAll place fs = some (d', q)) : Grows d d' := by
  induction fs generalizing d place with
  | nil =>
      cases h
      exact .refl _
  | cons field fs ih =>
      rw [enterAll_cons, Option.bind_eq_some_iff] at h
      obtain ⟨⟨d₁, next⟩, hfirst, hrest⟩ := h
      exact (grows_of_enter hfirst).trans (ih hrest)

theorem grows_of_make? {path : String} (h : d.make? path = some d') : Grows d d' := by
  rw [make?, makeFrom_eq, Option.map_eq_some_iff] at h
  obtain ⟨⟨d₁, q⟩, henter, rfl⟩ := h
  exact grows_of_enterAll henter

end Directory

end Host

end InstallAssistant
