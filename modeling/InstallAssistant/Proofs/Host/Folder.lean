import InstallAssistant.Proofs.Host.Directory

/-!
# InstallAssistant.Proofs.Host.Folder

Folders that are made, and the files that are put there.

1. A folder that was made is there (`exists_home?_of_make?`), and only the last
   folder of a path is made in a folder that is there (`make?_join_of_home?`).
2. Folders of one folder do not share their files (`place?_join_join_ne`).
3. Where a folder accepts files one by one, each in a folder of its own, it
   accepts them together (`accepts_join_iff`, `exists_put`, `Free.put`).
-/

namespace InstallAssistant.Host.Directory

open Host.Path

variable {d d' : Directory} {place home q fs : List String} {folder name field file : String}

/-! ## folders that are there -/

theorem isFolder_of_walk (h : d.walk place fs = some q) (hq : d.isFolder q = true) :
    d.isFolder place = true := by
  cases fs with
  | nil => exact Option.some.inj h ▸ hq
  | cons field fs =>
      rw [walk] at h
      split at h
      · next hfolder => exact hfolder
      · cases h

/-- Folders that are there are entered. -/
theorem enterAll_of_walk (h : d.walk place fs = some q) (hq : d.isFolder q = true) :
    d.enterAll place fs = some (d, q) := by
  induction fs generalizing place with
  | nil => rw [Option.some.inj h]; rfl
  | cons field fs ih =>
      have hplace := isFolder_of_walk h hq
      rw [walk, if_pos hplace] at h
      have hnext : d.find? (next place field) = some .folder :=
        beq_iff_eq.mp (isFolder_of_walk h hq)
      rw [enterAll_cons, enter, hnext]
      exact ih h

/-- What was entered is a folder, where the field leads. -/
theorem isFolder_of_enter (h : d.enter place field = some (d', q)) :
    q = next place field ∧ d'.isFolder q = true := by
  rw [enter] at h
  split at h
  · next hfolder => cases h; exact ⟨rfl, beq_iff_eq.mpr hfolder⟩
  · cases h
  · next hnone =>
    cases h
    have hne : next place field ≠ [] := fun hnil => by rw [hnil] at hnone; cases hnone
    exact ⟨rfl, beq_iff_eq.mpr (find?_set_self hne .folder)⟩

/-- **Folders that were made can be walked into.** -/
theorem walk_of_enterAll (hplace : d.isFolder place = true)
    (h : d.enterAll place fs = some (d', q)) :
    d'.walk place fs = some q ∧ d'.isFolder q = true := by
  induction fs generalizing d place with
  | nil =>
      cases h
      exact ⟨rfl, hplace⟩
  | cons field fs ih =>
      have hplace' := (grows_of_enterAll h).isFolder hplace
      rw [enterAll_cons, Option.bind_eq_some_iff] at h
      obtain ⟨⟨d₁, next⟩, hfirst, hrest⟩ := h
      obtain ⟨rfl, hnext⟩ := isFolder_of_enter hfirst
      rw [walk, if_pos hplace']
      exact ih hnext hrest

/-- What leads to a folder may end in an idle field. -/
theorem make?_eq (d : Directory) (folder : String) :
    d.make? folder = d.makeFrom [] (stem folder) := by
  have hidle : d.makeFrom [] (stem folder ++ [""]) = d.makeFrom [] (stem folder) := by
    rw [makeFrom_eq, makeFrom_eq, enterAll_append]
    cases henter : d.enterAll [] (stem folder) with
    | none => rfl
    | some made =>
        obtain ⟨d₁, q⟩ := made
        have hfolder : d₁.find? q = some .folder :=
          beq_iff_eq.mp (walk_of_enterAll d.isFolder_root henter).2
        have hstays : next q "" = q := rfl
        rw [Option.bind_some, enterAll_cons, enter, hstays, hfolder]
        rfl
  rw [make?]
  rcases fields_eq_stem folder with h | h
  · rw [h]
  · rw [h, hidle]

theorem make?_join (d : Directory) (folder : String) (h : IsName name) :
    d.make? (join folder name) = d.makeFrom [] (stem folder ++ [name]) := by
  rw [make?, fields_join folder h]

/-- In a folder that is there, only the last folder is made. -/
theorem make?_join_of_home? (h : IsName name) (hhome : d.home? folder = some home) :
    d.make? (join folder name) = d.makeFrom home [name] := by
  obtain ⟨hwalk, hfolder⟩ := Option.filter_eq_some_iff.mp hhome
  rw [make?_join d folder h, makeFrom_eq, makeFrom_eq, enterAll_append,
    enterAll_of_walk hwalk hfolder]
  rfl

/-- **A folder that was made is there**, and making it first changes nothing for what is made in
it. -/
theorem exists_home?_of_make? (h : d.make? folder = some d') :
    ∃ home, d'.home? folder = some home ∧
      ∀ name, IsName name → d.make? (join folder name) = d'.make? (join folder name) := by
  rw [make?_eq, makeFrom_eq, Option.map_eq_some_iff] at h
  obtain ⟨⟨d₁, home⟩, henter, rfl⟩ := h
  obtain ⟨hwalk, hfolder⟩ := walk_of_enterAll d.isFolder_root henter
  have hhome : d₁.home? folder = some home := by
    rw [home?, hwalk]
    exact Option.filter_eq_some_iff.mpr ⟨rfl, hfolder⟩
  refine ⟨home, hhome, fun name hname => ?_⟩
  rw [make?_join_of_home? hname hhome, make?_join d folder hname, makeFrom_eq, makeFrom_eq,
    enterAll_append, henter]
  rfl

/-! ## files in folders of a folder -/

theorem exists_home?_of_place?_join_join (hname : IsName name) (hfile : IsName file)
    (hplace : d.place? (join (join folder name) file) = some place) :
    ∃ home, d.home? folder = some home ∧ place = home ++ [name, file] := by
  simp only [place?_join _ _ hfile, home?_join _ _ hname, Option.map_eq_some_iff,
    Option.filter_eq_some_iff] at hplace
  obtain ⟨_, ⟨⟨home, hhome, rfl⟩, _⟩, rfl⟩ := hplace
  exact ⟨home, hhome, by simp⟩

/-- Two folders of one folder do not share a file. -/
theorem place?_join_join_ne {a b : String} (ha : IsName a) (hb : IsName b) (hfile : IsName file)
    (hne : a ≠ b) (hplace : d.place? (join (join folder a) file) = some place) :
    d.place? (join (join folder b) file) ≠ some place := by
  intro hplace'
  obtain ⟨home, hhome, rfl⟩ := exists_home?_of_place?_join_join ha hfile hplace
  obtain ⟨home', hhome', heq⟩ := exists_home?_of_place?_join_join hb hfile hplace'
  obtain rfl := Option.some.inj (hhome.symm.trans hhome')
  exact hne (List.cons.inj (List.append_cancel_left heq)).1

/-- A file in a folder is in no folder of that folder. -/
theorem place?_join_ne_join_join {a b : String} (ha : IsName a) (hb : IsName b)
    (hfile : IsName file) (hplace : d.place? (join folder b) = some place) :
    d.place? (join (join folder a) file) ≠ some place := by
  intro hplace'
  rw [place?_join _ _ hb, Option.map_eq_some_iff] at hplace
  obtain ⟨home, hhome, rfl⟩ := hplace
  obtain ⟨home', hhome', heq⟩ := exists_home?_of_place?_join_join ha hfile hplace'
  obtain rfl := Option.some.inj (hhome.symm.trans hhome')
  simpa using congrArg List.length heq

theorem Grows.home? (h : Grows d d') (hhome : d.home? folder = some home) :
    d'.home? folder = some home := by
  obtain ⟨hwalk, hfolder⟩ := Option.filter_eq_some_iff.mp hhome
  rw [Directory.home?, walk_of_le (fun _ => h.isFolder) hwalk]
  exact Option.filter_eq_some_iff.mpr ⟨rfl, h.isFolder hfolder⟩

/-- Whether a file can be written into a folder once the folder is made. -/
def Accepts (d : Directory) (folder file : String) : Prop :=
  ∃ d', d.make? folder = some d' ∧ d'.Writable (join folder file)

/-- A name in a folder is free for a folder with a file. -/
structure Free (d : Directory) (home : List String) (name file : String) : Prop where
  folder : ∀ bytes, d.find? (home ++ [name]) ≠ some (.file bytes)
  file : d.isFolder (home ++ [name, file]) = false

theorem exists_makeFrom_name (hname : IsName name)
    (h : ∀ bytes, d.find? (home ++ [name]) ≠ some (.file bytes)) :
    ∃ d', d.makeFrom home [name] = some d' ∧ d'.isFolder (home ++ [name]) = true ∧
      ∀ q, q ≠ home ++ [name] → d'.find? q = d.find? q := by
  simp only [makeFrom, next_name home hname]
  cases hold : d.find? (home ++ [name]) with
  | none =>
      exact ⟨_, rfl, beq_iff_eq.mpr (find?_set_self (List.concat_ne_nil _ _) .folder),
        fun q hq => find?_set_ne hq .folder⟩
  | some e =>
      cases e with
      | file bytes => exact absurd hold (h bytes)
      | folder => exact ⟨_, rfl, beq_iff_eq.mpr hold, fun _ _ => rfl⟩

/-- **A free name takes a folder with a file**, and nothing else changes. -/
theorem exists_put (hname : IsName name) (hfile : IsName file)
    (hhome : d.home? folder = some home) (h : d.Free home name file) (bytes : List UInt8) :
    ∃ d₁ d₂, d.make? (join folder name) = some d₁ ∧
      d₁.write? (join (join folder name) file) bytes = some d₂ ∧
      d₂.home? folder = some home ∧
      ∀ q, q ≠ home ++ [name] → q ≠ home ++ [name, file] → d₂.find? q = d.find? q := by
  obtain ⟨d₁, hmake, hfolder, hsame⟩ := exists_makeFrom_name hname h.folder
  rw [← make?_join_of_home? hname hhome] at hmake
  have hhome₁ := (grows_of_make? hmake).home? hhome
  have hplace : d₁.place? (join (join folder name) file) = some (home ++ [name, file]) := by
    rw [place?_join _ _ hfile, home?_join _ _ hname, hhome₁]
    simp [Option.filter, hfolder]
  have hfree : d₁.isFolder (home ++ [name, file]) = false := by
    rw [isFolder, hsame _ (by simp)]
    exact h.file
  refine ⟨d₁, _, hmake, write?_eq_some_iff.mpr ⟨_, hplace, hfree, rfl⟩, ?_, ?_⟩
  · rw [home?, walk_congr (isFolder_set_file hfree bytes), isFolder_set_file hfree bytes]
    exact hhome₁
  · intro q hq hq'
    rw [find?_set_ne hq', hsame q hq]

/-- **Where a folder accepts a folder with a file.** -/
theorem accepts_join_iff (hname : IsName name) (hfile : IsName file)
    (hhome : d.home? folder = some home) :
    d.Accepts (join folder name) file ↔ d.Free home name file := by
  constructor
  · rintro ⟨d', hmake, place, hplace, hfolder⟩
    have hgrows := grows_of_make? hmake
    obtain ⟨home', hhome', rfl⟩ := exists_home?_of_place?_join_join hname hfile hplace
    obtain rfl := Option.some.inj ((hgrows.home? hhome).symm.trans hhome')
    constructor
    · intro bytes hbytes
      rw [make?_join_of_home? hname hhome] at hmake
      simp [makeFrom, next_name home hname, hbytes] at hmake
    · cases hold : d.isFolder (home ++ [name, file]) with
      | false => rfl
      | true => rw [← hfolder, hgrows.isFolder hold]
  · intro h
    obtain ⟨d₁, d₂, hmake, hwrite, _⟩ := exists_put hname hfile hhome h []
    obtain ⟨place, hplace, hfolder, _⟩ := write?_eq_some_iff.mp hwrite
    exact ⟨d₁, hmake, place, hplace, hfolder⟩

theorem Free.put {other : String} (h : d.Free home other file) (hne : other ≠ name)
    (hsame : ∀ q, q ≠ home ++ [name] → q ≠ home ++ [name, file] → d'.find? q = d.find? q) :
    d'.Free home other file where
  folder bytes := by
    rw [hsame _ (by simpa using hne) (by simp)]
    exact h.folder bytes
  file := by
    rw [isFolder, hsame _ (by simp) (by simpa using hne)]
    exact h.file

end InstallAssistant.Host.Directory
